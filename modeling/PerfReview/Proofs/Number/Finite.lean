import Mathlib.Algebra.Group.Nat.Defs
import PerfReview.Settings

/-!
# Finite numbers

A quotient below `2 ^ 1022` is nearest to a finite number, and an integer exactly below `reach`. A
thousandth of the number nearest to an integer is finite.
-/

namespace PerfReview

namespace Number

theorem roundHalfEven_le_two_pow {num den k : Nat} (h : num < den * 2 ^ k) :
    roundHalfEven num den ≤ 2 ^ k := by
  have hdiv : num / den < 2 ^ k := Nat.div_lt_of_lt_mul h
  unfold roundHalfEven
  dsimp only
  split
  · omega
  · split
    · omega
    · split <;> omega

/-- A quotient in the last unit below `2 ^ 53` rounds up exactly from its middle on. -/
theorem roundHalfEven_top {num d : Nat} (h : num < 2 ^ 54 * d) :
    roundHalfEven num (2 * d) = 2 ^ 53 ↔ (2 ^ 54 - 1) * d ≤ num := by
  have hd : 0 < d := Nat.pos_of_ne_zero (by rintro rfl; simp at h)
  constructor
  · intro hround
    have hle : 2 * (roundHalfEven num (2 * d) * (2 * d)) ≤ 2 * num + 2 * d :=
      roundHalfEven_le (by omega)
    rw [hround] at hle
    omega
  · intro hmiddle
    have hquotient : num / (2 * d) = 2 ^ 53 - 1 := Nat.div_eq_of_lt_le (by omega) (by omega)
    have hrest := Nat.div_add_mod num (2 * d)
    rw [hquotient] at hrest
    -- the quotient is odd, so a tie goes up
    unfold roundHalfEven
    dsimp only
    rw [hquotient, if_neg (show ¬2 * (num % (2 * d)) < 2 * d by omega)]
    split <;> rfl

namespace Binary64

variable {negative : Bool} {num den m : Nat} {n e : Int} {x : Binary64}

theorem binaryOrder_le (num den : Nat) :
    binaryOrder num den ≤ (num.log2 : Int) - (den.log2 : Int) := by
  unfold binaryOrder
  dsimp only
  split <;> omega

theorem ofRatio_isFinite (negative : Bool) {k : Nat} (hk : k ≤ 1022) (h : num < den * 2 ^ k) :
    (ofRatio negative num den).isFinite = true := by
  unfold ofRatio
  split
  · rfl
  · rename_i hnum
    have hlog : num.log2 < den.log2 + 1 + k := by
      refine (Nat.pow_lt_pow_iff_right (a := 2) (by decide)).1 ?_
      calc 2 ^ num.log2 ≤ num := Nat.log2_self_le hnum
        _ < den * 2 ^ k := h
        _ ≤ 2 ^ (den.log2 + 1) * 2 ^ k := Nat.mul_le_mul_right _ (Nat.le_of_lt Nat.lt_log2_self)
        _ = 2 ^ (den.log2 + 1 + k) := (Nat.pow_add ..).symm
    have horder := binaryOrder_le num den
    have hq : max (binaryOrder num den - 52) minExponent ≤ 970 := by
      unfold minExponent
      omega
    dsimp only
    generalize max (binaryOrder num den - 52) minExponent = q at hq
    split <;> (unfold maxExponent; split <;> first | rfl | omega)

theorem binaryOrder_one (h : num ≠ 0) : binaryOrder num 1 = num.log2 := by
  have hle : 1 * (power 2 num.log2).1 ≤ num * (power 2 num.log2).2 := by
    simpa [power] using Nat.log2_self_le h
  have hlog : (num.log2 : Int) - ((1 : Nat).log2 : Int) = num.log2 := by
    rw [show (1 : Nat).log2 = 0 from rfl]
    simp
  unfold binaryOrder
  dsimp only
  rw [hlog, if_pos hle]

/-- An integer in units of the exponent that its order has is a mantissa. -/
theorem mantissa_lt (num : Nat) :
    let p := power 2 (max ((num.log2 : Int) - 52) minExponent)
    num * p.2 < 1 * p.1 * 2 ^ 53 := by
  have hnum : num < 2 ^ (num.log2 + 1) := Nat.lt_log2_self
  have hq : max ((num.log2 : Int) - 52) minExponent = num.log2 - 52 := by
    unfold minExponent
    omega
  dsimp only
  rw [hq, Nat.one_mul]
  unfold power
  split
  · rename_i hle
    rw [Nat.mul_one, Nat.pow_eq, ← Nat.pow_add,
      show ((num.log2 : Int) - 52).toNat + 53 = num.log2 + 1 by omega]
    exact hnum
  · rename_i hlt
    calc num * Nat.pow 2 (-((num.log2 : Int) - 52)).toNat
        < 2 ^ (num.log2 + 1) * 2 ^ (-((num.log2 : Int) - 52)).toNat :=
          Nat.mul_lt_mul_of_pos_right hnum (Nat.two_pow_pos _)
      _ = 1 * 2 ^ 53 := by
        rw [← Nat.pow_add, Nat.one_mul]
        congr 1
        omega

theorem bounds_of_ofRatio {s : Bool} (h : ofRatio negative num 1 = .finite s m e) :
    m ≤ 2 ^ 53 ∧ e ≤ 971 := by
  unfold ofRatio at h
  split at h
  · cases h
    decide
  · rename_i hnum
    have hm := roundHalfEven_le_two_pow (mantissa_lt num)
    rw [binaryOrder_one hnum] at h
    dsimp only at h
    generalize max ((num.log2 : Int) - 52) minExponent = q at h hm
    split at h <;> (dsimp only at h; split at h) <;> cases h
    · exact ⟨by decide, by simp_all [maxExponent]⟩
    · exact ⟨hm, by simp_all [maxExponent]⟩

theorem ofInt?_eq_some (h : ofInt? n = some x) :
    ∃ s m e, x = .finite s m e ∧ m ≤ 2 ^ 53 ∧ e ≤ 971 := by
  unfold ofInt? at h
  split at h
  · rename_i s m e hr
    cases h
    exact ⟨_, m, e, rfl, bounds_of_ofRatio hr⟩
  · cases h

/-- A quotient is beyond the finite numbers by its order, or because it rounds up to the next. -/
theorem ofRatio_isFinite_iff (negative : Bool) (hnum : num ≠ 0) :
    let q := max (binaryOrder num den - 52) minExponent
    let p := power 2 q
    (ofRatio negative num den).isFinite = true ↔
      q < maxExponent ∨ (q = maxExponent ∧ roundHalfEven (num * p.2) (den * p.1) ≠ 2 ^ 53) := by
  have htop : 2 * fullMantissa = 2 ^ 53 := rfl
  unfold ofRatio
  dsimp only
  rw [if_neg hnum, htop]
  generalize max (binaryOrder num den - 52) minExponent = q
  split
  · rename_i hm
    simp only [hm, ne_eq, not_true_eq_false, and_false, or_false]
    split
    · rename_i hq
      exact iff_of_false nofun (by omega)
    · rename_i hq
      exact iff_of_true rfl (by omega)
  · rename_i hm
    simp only [hm, ne_eq, not_false_eq_true, and_true]
    split
    · rename_i hq
      exact iff_of_false nofun (by omega)
    · rename_i hq
      exact iff_of_true rfl (by omega)

/-- The least natural that is nearest to no finite number. -/
def reach : Nat := (2 ^ 54 - 1) * 2 ^ 970

theorem ofRatio_one_isFinite (negative : Bool) (num : Nat) :
    (ofRatio negative num 1).isFinite = true ↔ num < reach := by
  unfold reach
  obtain ⟨k, hk⟩ : ∃ k, k = 970 := ⟨_, rfl⟩
  rw [← hk]
  have hpos : 0 < 2 ^ k := Nat.two_pow_pos k
  by_cases hnum : num = 0
  · subst hnum
    exact iff_of_true rfl (by omega)
  have hlow : 2 ^ num.log2 ≤ num := Nat.log2_self_le hnum
  have hhigh : num < 2 ^ (num.log2 + 1) := Nat.lt_log2_self
  have hq : max (binaryOrder num 1 - 52) minExponent = num.log2 - 52 := by
    rw [binaryOrder_one hnum]
    unfold minExponent
    omega
  refine (ofRatio_isFinite_iff negative hnum).trans ?_
  rw [hq]
  unfold maxExponent
  rcases Nat.lt_trichotomy num.log2 (k + 53) with hlog | hlog | hlog
  · have hle : 2 ^ (num.log2 + 1) ≤ 2 ^ (k + 53) := Nat.pow_le_pow_right (by decide) hlog
    rw [Nat.pow_add 2 k 53] at hle
    exact iff_of_true (.inl (by omega)) (by omega)
  · rw [hlog, show k + 53 + 1 = 54 + k by omega, Nat.pow_add] at hhigh
    have hp : power 2 ((num.log2 : Int) - 52) = (2 * 2 ^ k, 1) := by
      rw [hlog, power, if_pos (by omega), show ((k + 53 : Nat) - 52 : Int).toNat = k + 1 by omega]
      exact congrArg (·, 1) (Nat.pow_succ' ..)
    rw [hp]
    dsimp only
    rw [Nat.mul_one, Nat.one_mul, ne_eq, roundHalfEven_top hhigh]
    omega
  · have hle : 2 ^ (54 + k) ≤ 2 ^ num.log2 := Nat.pow_le_pow_right (by decide) (by omega)
    rw [Nat.pow_add 2 54 k] at hle
    exact iff_of_false (by omega) (by omega)

theorem ofInt?_isSome_iff (n : Int) : (ofInt? n).isSome = true ↔ n.natAbs < reach := by
  rw [← ofRatio_one_isFinite (n < 0)]
  unfold ofInt?
  cases ofRatio (n < 0) n.natAbs 1 <;> simp [isFinite]

end Binary64

end Number

open Number (Binary64)

theorem Settings.thousandth_isFinite {n : Int} {x : Binary64} (h : Binary64.ofInt? n = some x) :
    (thousandth x).isFinite = true := by
  obtain ⟨s, m, e, rfl, hm, he⟩ := Binary64.ofInt?_eq_some h
  unfold thousandth Binary64.scale Binary64.ratio Binary64.power
  dsimp only
  split
  · refine Binary64.ofRatio_isFinite s (k := e.toNat + 44) (by omega) ?_
    calc m * Nat.pow 2 e.toNat * 1 ≤ 2 ^ 53 * 2 ^ e.toNat := by
          rw [Nat.mul_one]
          exact Nat.mul_le_mul_right _ hm
      _ = 512 * 2 ^ (e.toNat + 44) := by
          rw [Nat.pow_add]
          omega
      _ < 1 * 1000 * 2 ^ (e.toNat + 44) :=
        Nat.mul_lt_mul_of_pos_right (by decide) (Nat.two_pow_pos _)
  · refine Binary64.ofRatio_isFinite s (k := 44) (by decide) ?_
    calc m * 1 * 1 ≤ 2 ^ 53 := by omega
      _ < 1000 * 2 ^ 44 := by decide
      _ ≤ Nat.pow 2 (-e).toNat * 1000 * 2 ^ 44 :=
        Nat.mul_le_mul_right _ (Nat.le_mul_of_pos_left _ (Nat.two_pow_pos _))

end PerfReview
