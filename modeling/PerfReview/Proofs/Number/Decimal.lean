import Mathlib.Data.Nat.Digits.Defs
import PerfReview.Number.Layout

/-!
# The written form of floating-point numbers

`Decimal s` says that `s` is a decimal numeral of the usual form: a whole part without superfluous
zeros, and then a fraction, an exponent or both. Every positive finite number is written so. Its
digits start with no zero because zero lies in the span of no positive number.
-/

namespace PerfReview.Number

def Digits (s : List Char) : Prop := ∀ c ∈ s, c.isDigit = true

/-- A whole part: a zero, or digits that start with another. -/
inductive WholePart : List Char → Prop where
  | zero : WholePart ['0']
  | digits {c : Char} {ds : List Char} (hc : c.isDigit = true) (h0 : c ≠ '0') (hd : Digits ds) :
    WholePart (c :: ds)

/-- An exponent: its mark, its sign and digits. -/
inductive Exponent : List Char → Prop where
  | signed {sign : Char} {ds : List Char} (hs : sign = '+' ∨ sign = '-') (hn : ds ≠ [])
    (hd : Digits ds) : Exponent ('e' :: sign :: ds)

/-- A decimal numeral with a fraction, an exponent or both. -/
inductive Decimal : List Char → Prop where
  | fraction {whole ds : List Char} (hw : WholePart whole) (hn : ds ≠ []) (hd : Digits ds) :
    Decimal (whole ++ '.' :: ds)
  | exponent {whole ex : List Char} (hw : WholePart whole) (he : Exponent ex) :
    Decimal (whole ++ ex)
  | both {whole ds ex : List Char} (hw : WholePart whole) (hn : ds ≠ []) (hd : Digits ds)
    (he : Exponent ex) : Decimal (whole ++ '.' :: ds ++ ex)

theorem Digits.append {s t : List Char} (hs : Digits s) (ht : Digits t) : Digits (s ++ t) :=
  fun c hc => (List.mem_append.1 hc).elim (hs c) (ht c)

theorem Digits.take {s : List Char} (h : Digits s) (n : Nat) : Digits (s.take n) :=
  fun c hc => h c (List.mem_of_mem_take hc)

theorem Digits.drop {s : List Char} (h : Digits s) (n : Nat) : Digits (s.drop n) :=
  fun c hc => h c (List.mem_of_mem_drop hc)

theorem digits_toDigits (n : Nat) : Digits (Nat.toDigits 10 n) := fun _ =>
  Nat.isDigit_of_mem_toDigits (by decide) (by decide)

theorem digits_zeros (n : Nat) : Digits (Layout.zeros n) := by
  intro c hc
  rw [List.eq_of_mem_replicate hc]
  rfl

/-! ## Whole numbers -/

theorem toDigits_eq_cons {n : Nat} (h : n ≠ 0) :
    ∃ c ds, Nat.toDigits 10 n = c :: ds ∧ c ≠ '0' := by
  induction n using Nat.strong_induction_on with
  | _ n ih =>
    rcases Nat.lt_or_ge n 10 with hn | hn
    · refine ⟨n.digitChar, [], Nat.toDigits_of_lt_base hn, ?_⟩
      exact (by decide : ∀ d < 10, d ≠ 0 → Nat.digitChar d ≠ '0') n hn h
    · obtain ⟨c, ds, e, hc⟩ := ih (n / 10) (by omega) (by omega)
      exact ⟨c, ds ++ [(n % 10).digitChar], by rw [Nat.toDigits_of_base_le (by decide) hn, e]; rfl,
        hc⟩

theorem wholePart_toDigits (n : Nat) : WholePart (Nat.toDigits 10 n) := by
  by_cases h : n = 0
  · subst h
    exact .zero
  · obtain ⟨c, ds, e, hc⟩ := toDigits_eq_cons h
    have hd := digits_toDigits n
    rw [e] at hd ⊢
    exact .digits (hd c List.mem_cons_self) hc fun d h => hd d (List.mem_cons_of_mem _ h)

/-! ## Shortest digits -/

theorem not_holds_zero {mantissa : Nat} (h : mantissa ≠ 0) (exponent k : Int) :
    (Binary64.span mantissa exponent).holds 0 k = false := by
  have hpower : ∀ base : Nat, 0 < base → ∀ e : Int,
      0 < (Binary64.power base e).1 ∧ 0 < (Binary64.power base e).2 := by
    intro base hb e
    unfold Binary64.power
    split
    · exact ⟨Nat.pow_pos hb, Nat.one_pos⟩
    · exact ⟨Nat.one_pos, Nat.pow_pos hb⟩
  have hlow : 0 < (Binary64.span mantissa exponent).low := by
    unfold Binary64.span
    dsimp only
    split <;> omega
  have hl : 0 < (Binary64.overCommon 0 k (Binary64.span mantissa exponent).low
      (Binary64.span mantissa exponent).exponent).2 :=
    Nat.mul_pos (Nat.mul_pos hlow (hpower 2 (by decide) _).1) (hpower 10 (by decide) k).2
  have hz : (Binary64.overCommon 0 k (Binary64.span mantissa exponent).low
      (Binary64.span mantissa exponent).exponent).1 = 0 := by
    simp [Binary64.overCommon]
  simp only [Binary64.Span.holds, hz]
  split
  · simp [hl.not_ge]
  · simp

theorem onGrid?_ne_zero {mantissa : Nat} (h : mantissa ≠ 0) {exponent k : Int} {d : Nat}
    (hd : (Binary64.span mantissa exponent).onGrid? k = some d) : d ≠ 0 := by
  rintro rfl
  have hz := not_holds_zero h exponent k
  simp only [Binary64.Span.onGrid?] at hd
  split at hd
  · split at hd
    · rename_i hb _ _
      rw [Option.some.inj hd, hz] at hb
      cases hb
    · cases hd
  · rename_i hb _
    rw [Option.some.inj hd, hz] at hb
    cases hb
  · cases hd
  · cases hd

/-- The digits of a positive number are not zero, unless none were found. -/
theorem shortest_ne_zero {mantissa : Nat} (h : mantissa ≠ 0) (exponent : Int) :
    (Binary64.shortest mantissa exponent).1 ≠ 0 ∨
      Binary64.shortest mantissa exponent = (0, 0) := by
  unfold Binary64.shortest
  dsimp only
  cases hf : List.findSome? _ _ with
  | none => exact .inr rfl
  | some found =>
    obtain ⟨n, -, hn⟩ := List.exists_of_findSome?_eq_some hf
    obtain ⟨d, hd, rfl⟩ := Option.map_eq_some_iff.1 hn
    exact .inl (onGrid?_ne_zero h hd)

/-! ## Layouts -/

namespace Layout

theorem normalDigits_cons {c : Char} (hc : c ≠ '0') (ds : List Char) (k : Int) :
    ∃ ds', (∀ d ∈ ds', d ∈ ds) ∧ (normalDigits (c :: ds) k).1 = c :: ds' := by
  refine ⟨(ds.reverse.dropWhile (· = '0')).reverse, fun d hd => ?_, ?_⟩
  · exact List.mem_reverse.1 (List.dropWhile_sublist _ |>.subset (List.mem_reverse.1 hd))
  · simp only [normalDigits, List.reverse_cons, List.dropWhile_append]
    split
    · rename_i he
      simp [List.isEmpty_iff.1 he, hc]
    · simp

variable {c : Char} {ds : List Char}

theorem decimal_positional (hc : c.isDigit = true) (h0 : c ≠ '0') (hd : Digits ds) (k : Int) :
    Decimal (positional (c :: ds) k) := by
  have hall : Digits (c :: ds) := List.forall_mem_cons.2 ⟨hc, hd⟩
  unfold positional
  dsimp only
  split
  · have hzero : Digits ['0'] := by
      intro d h
      rw [List.mem_singleton.1 h]
      rfl
    exact .fraction (.digits hc h0 (hd.append (digits_zeros _))) (List.cons_ne_nil _ _) hzero
  · rename_i hk
    split
    · rename_i hpoint
      obtain ⟨n, hn⟩ : ∃ n, ((c :: ds).length + k).toNat = n + 1 :=
        ⟨((c :: ds).length + k).toNat - 1, by omega⟩
      have hlt : n < ds.length := by
        simp only [List.length_cons] at hn
        omega
      rw [hn, List.take_succ_cons, List.drop_succ_cons]
      exact .fraction (.digits hc h0 (hd.take n)) (by simpa using hlt) (hd.drop n)
    · exact .fraction .zero (by simp) ((digits_zeros _).append hall)

theorem decimal_scientific (hc : c.isDigit = true) (h0 : c ≠ '0') (hd : Digits ds) (order : Int) :
    Decimal (scientific (c :: ds) order) := by
  have hex : ∀ e : List Char, e = Nat.toDigits 10 order.natAbs →
      Exponent ('e' :: (if order < 0 then '-' else '+') :: if e.length < 2 then '0' :: e else e) := by
    rintro e rfl
    refine .signed (by split <;> simp) ?_ ?_
    · split
      · exact List.cons_ne_nil _ _
      · exact Nat.toDigits_ne_nil
    · split
      · exact List.forall_mem_cons.2 ⟨rfl, digits_toDigits _⟩
      · exact digits_toDigits _
  unfold scientific
  cases ds with
  | nil => exact .exponent (.digits hc h0 (List.forall_mem_nil _)) (hex _ rfl)
  | cons r rest =>
    exact .both (.digits hc h0 (List.forall_mem_nil _)) (List.cons_ne_nil r rest) hd (hex _ rfl)

theorem decimal_magnitude (l : Layout) {mantissa : Nat} (h : mantissa ≠ 0) (exponent : Int)
    (hl : l.minOrder ≤ 0 ∧ 0 < l.maxOrder) : Decimal (l.magnitude mantissa exponent) := by
  unfold magnitude
  dsimp only
  rcases shortest_ne_zero h exponent with hs | hs
  · obtain ⟨c, ds, e, h0⟩ := toDigits_eq_cons hs
    have hall := digits_toDigits (Binary64.shortest mantissa exponent).1
    rw [e] at hall ⊢
    obtain ⟨hc, hd⟩ := List.forall_mem_cons.1 hall
    obtain ⟨ds', hsub, hn⟩ := normalDigits_cons h0 ds (Binary64.shortest mantissa exponent).2
    have hd' : Digits ds' := fun d h => hd d (hsub d h)
    rw [hn]
    split
    · exact decimal_positional hc h0 hd' _
    · exact decimal_scientific hc h0 hd' _
  · -- no digits at all stand for a zero
    have hzero : normalDigits (Nat.toDigits 10 0) 0 = ([], 1) := by decide
    rw [hs, hzero]
    simp only [List.length_nil, Nat.cast_zero, add_zero, sub_self, hl.1, hl.2, decide_true,
      Bool.and_true, if_true]
    exact .fraction .zero (List.cons_ne_nil _ _) (List.forall_mem_cons.2 ⟨rfl, List.forall_mem_nil _⟩)

end Layout

end PerfReview.Number
