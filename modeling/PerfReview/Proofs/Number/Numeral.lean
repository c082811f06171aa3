import Mathlib.Algebra.Group.Nat.Defs
import PerfReview.Number.Layout
import PerfReview.Number.Reader

/-!
# Numerals

`Numeral s n` says that the decimal digits `s`, of any script, stand for the number `n`. A run of
digits is read as the number that it stands for if it has at most `maxDigits` digits, and is refused
with its length otherwise.
-/

namespace PerfReview.Number

/-- The digits, the most significant first, stand for the number. -/
def Numeral (s : List Char) (n : Nat) : Prop :=
  ∃ ds, s.mapM Text.digitValue? = some ds ∧ ds.foldl (fun n d => n * 10 + d) 0 = n

theorem length_eq_of_mapM {s : List Char} {ds : List Nat} (h : s.mapM Text.digitValue? = some ds) :
    ds.length = s.length := by
  induction s generalizing ds with
  | nil =>
    cases h
    rfl
  | cons c s ih =>
    simp only [List.mapM_cons, Option.bind_eq_bind, Option.bind_eq_some_iff] at h
    obtain ⟨d, -, ds', h', e⟩ := h
    cases e
    rw [List.length_cons, List.length_cons, ih h']

theorem readDigits_eq_ok_iff {s : List Char} {n : Nat} :
    readDigits s = .ok n ↔ Numeral s n ∧ s.length ≤ maxDigits := by
  unfold readDigits Numeral
  cases h : s.mapM Text.digitValue? with
  | none => simp
  | some ds =>
    simp only [← length_eq_of_mapM h, Option.some.injEq, exists_eq_left', ofDigits_eq_foldl]
    by_cases hl : maxDigits < ds.length
    · simp [hl]
    · simp [hl, Nat.le_of_not_lt hl]

theorem exists_numeral {s : List Char} (h : ∀ c ∈ s, Text.isDigit c = true) : ∃ n, Numeral s n := by
  suffices ∃ ds, s.mapM Text.digitValue? = some ds by
    obtain ⟨ds, e⟩ := this
    exact ⟨_, ds, e, rfl⟩
  induction s with
  | nil => exact ⟨[], rfl⟩
  | cons c s ih =>
    obtain ⟨hc, hs⟩ := List.forall_mem_cons.1 h
    obtain ⟨ds, e⟩ := ih hs
    obtain ⟨d, hd⟩ := Option.isSome_iff_exists.1 hc
    exact ⟨d :: ds, by simp [hd, e]⟩

/-! ## Written numbers -/

theorem digitValue?_of_isDigit {c : Char} (h : c.isDigit = true) :
    Text.digitValue? c = some (c.toNat - 48) := by
  have hrange : 48 ≤ c.toNat ∧ c.toNat < 48 + 10 := by
    simp only [Char.isDigit, Bool.and_eq_true, decide_eq_true_eq] at h
    have hlow : 48 ≤ c.toNat := h.1
    have hhigh : c.toNat ≤ 57 := h.2
    omega
  rw [Text.digitValue?, Text.digitZeros, List.find?_cons_of_pos]
  · rfl
  · simp only [Bool.and_eq_true, decide_eq_true_eq]
    exact hrange

theorem isDigit_of_mem_toDigits {n : Nat} {c : Char} (h : c ∈ Nat.toDigits 10 n) :
    Text.isDigit c = true := by
  rw [Text.isDigit, digitValue?_of_isDigit (Nat.isDigit_of_mem_toDigits (by decide) (by decide) h)]
  rfl

theorem foldl_toDigits (n : Nat) :
    ((Nat.toDigits 10 n).map fun c => c.toNat - 48).foldl (fun n d => n * 10 + d) 0 = n := by
  calc ((Nat.toDigits 10 n).map fun c => c.toNat - 48).foldl (fun n d => n * 10 + d) 0
    _ = Nat.ofDigitChars 10 (Nat.toDigits 10 n) 0 := by
      rw [List.foldl_map, Nat.ofDigitChars_eq_foldl]
      simp only [Nat.mul_comm]
      rfl
    _ = n := Nat.ofDigitChars_ten_toDigits

theorem numeral_toDigits (n : Nat) : Numeral (Nat.toDigits 10 n) n := by
  have hmap : ∀ s : List Char, (∀ c ∈ s, c.isDigit = true) →
      s.mapM Text.digitValue? = some (s.map fun c => c.toNat - 48) := by
    intro s hs
    induction s with
    | nil => rfl
    | cons c s ih =>
      obtain ⟨hc, hs⟩ := List.forall_mem_cons.1 hs
      simp [digitValue?_of_isDigit hc, ih hs]
  exact ⟨_, hmap _ fun c => Nat.isDigit_of_mem_toDigits (by decide) (by decide), foldl_toDigits n⟩

theorem toList_intText {n : Int} (h : 0 ≤ n) : (intText n).toList = Nat.toDigits 10 n.natAbs := by
  rw [intText, String.toList_ofList, decide_eq_false (Int.not_lt.2 h)]
  rfl

theorem toDigits_injective {n m : Nat} (h : Nat.toDigits 10 n = Nat.toDigits 10 m) : n = m := by
  rw [← Nat.ofDigitChars_ten_toDigits (n := n), h, Nat.ofDigitChars_ten_toDigits]

theorem hyphen_or_isDigit_of_mem_intText {n : Int} {c : Char} (h : c ∈ (intText n).toList) :
    c = '-' ∨ Text.isDigit c = true := by
  rw [intText, String.toList_ofList, Layout.signed] at h
  split at h
  · exact (List.mem_cons.1 h).imp_right isDigit_of_mem_toDigits
  · exact .inr (isDigit_of_mem_toDigits h)

theorem hyphen_notMem_toDigits (n : Nat) : '-' ∉ Nat.toDigits 10 n := fun h =>
  absurd (isDigit_of_mem_toDigits h) (by decide)

theorem intText_injective {n m : Int} (h : (intText n).toList = (intText m).toList) : n = m := by
  simp only [intText, String.toList_ofList, Layout.signed, decide_eq_true_eq] at h
  split at h <;> split at h
  · have := toDigits_injective (List.cons.inj h).2
    omega
  · exact absurd (h ▸ List.mem_cons_self) (hyphen_notMem_toDigits m.natAbs)
  · exact absurd (h ▸ List.mem_cons_self) (hyphen_notMem_toDigits n.natAbs)
  · have := toDigits_injective h
    omega

/-- A number that is not too long to be written is read as it was written. -/
theorem readDigits_toDigits {n : Nat} (h : n < 10 ^ maxDigits) :
    readDigits (Nat.toDigits 10 n) = .ok n :=
  readDigits_eq_ok_iff.2 ⟨numeral_toDigits n,
    (Nat.length_toDigits_le_iff (by decide) (by decide)).2 h⟩

end PerfReview.Number
