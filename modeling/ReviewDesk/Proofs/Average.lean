import Mathlib.Algebra.Order.Field.Rat
import Mathlib.Data.Nat.Log
import Mathlib.Tactic.Linarith
import ReviewDesk.Entity

/-!
# The average number of reviewers

The average is an exact quotient, `Totals.mean`, and what is shown for it is the binary fraction
nearest to it. Where each pull request that is reviewed at all has one reviewer or two, both lie
between one and two, since one and two are binary fractions themselves.
-/
namespace ReviewDesk

/-- The average number of reviewers, as it is before it is rounded. -/
def Totals.mean (t : Totals) : ℚ := t.assigned / t.reviewed

theorem Totals.mean_mul (t : Totals) (h : t.assigned ≤ 2 * t.reviewed) :
    t.mean * t.reviewed = t.assigned := by
  by_cases hzero : t.reviewed = 0
  · have hnone : t.assigned = 0 := by omega
    simp [mean, hzero, hnone]
  · have hne : (t.reviewed : ℚ) ≠ 0 := Nat.cast_ne_zero.2 hzero
    exact div_mul_cancel₀ _ hne

theorem Totals.mean_bounds (t : Totals) (hlow : t.reviewed ≤ t.assigned)
    (hhigh : t.assigned ≤ 2 * t.reviewed) (hne : t.reviewed ≠ 0) : 1 ≤ t.mean ∧ t.mean ≤ 2 := by
  have hpos : (0 : ℚ) < t.reviewed := Nat.cast_pos.2 (Nat.pos_of_ne_zero hne)
  constructor
  · rw [mean, le_div_iff₀ hpos, one_mul]
    exact_mod_cast hlow
  · rw [mean, div_le_iff₀ hpos]
    exact_mod_cast hhigh

/-- Rounding stays between whole numbers. -/
theorem roundHalfEven_bounds {num den a b : Nat} (h : 0 < den) (ha : a * den ≤ num)
    (hb : num ≤ b * den) : a ≤ roundHalfEven num den ∧ roundHalfEven num den ≤ b := by
  obtain ⟨hlow, hhigh⟩ := roundHalfEven_near num den h
  constructor
  · have hmul : 2 * a * den ≤ (2 * roundHalfEven num den + 1) * den := by linarith
    have hle := Nat.le_of_mul_le_mul_right hmul h
    omega
  · have hmul : 2 * roundHalfEven num den * den ≤ (2 * b + 1) * den := by linarith
    have hle := Nat.le_of_mul_le_mul_right hmul h
    omega

namespace Binary64

/-- The last kept bit of a quotient from one up to two is the one that it is for one. -/
theorem unitExponent_eq {num den : Nat} (h : 0 < den) (hlow : den ≤ num) (hhigh : num < 2 * den) :
    unitExponent num den = -52 := by
  have hle : den.log2 ≤ num.log2 := by
    rw [Nat.log2_eq_log_two, Nat.log2_eq_log_two]
    exact Nat.log_mono_right hlow
  have hge : num.log2 ≤ den.log2 + 1 := by
    rw [Nat.log2_eq_log_two, Nat.log2_eq_log_two, ← Nat.log_mul_base one_lt_two h.ne']
    exact Nat.log_mono_right (by omega)
  have hnot : ¬ num < den := by omega
  have hmin : num < den <<< 1 := by
    rw [Nat.shiftLeft_eq]
    omega
  rcases (by omega : num.log2 = den.log2 ∨ num.log2 = den.log2 + 1) with heq | heq
  · have hzero : ((num.log2 : Int) - den.log2 - 52 : Int) = -52 := by omega
    simp [unitExponent, hzero, hnot]
  · have hone : ((num.log2 : Int) - den.log2 - 52 : Int) = -51 := by omega
    simp [unitExponent, hone, hmin]

theorem unitExponent_two {den : Nat} (h : 0 < den) : unitExponent (2 * den) den = -51 := by
  have hlog : (2 * den).log2 = den.log2 + 1 := by
    rw [Nat.log2_eq_log_two, Nat.log2_eq_log_two, Nat.mul_comm, Nat.log_mul_base one_lt_two h.ne']
  have hone : (((2 * den).log2 : Int) - den.log2 - 52 : Int) = -51 := by omega
  have hnot : ¬ 2 * den < den <<< 1 := by
    rw [Nat.shiftLeft_eq]
    omega
  simp [unitExponent, hone, hnot]

/-- A quotient between one and two stays between them when it is rounded. -/
theorem ofRatio_bounds {num den : Nat} (h : 0 < den) (hlow : den ≤ num) (hhigh : num ≤ 2 * den) :
    (ofRatio false 1 1).bits ≤ (ofRatio false num den).bits ∧
      (ofRatio false num den).bits ≤ (ofRatio false 2 1).bits := by
  have hone : (ofRatio false 1 1).bits = 1023 * 2 ^ 52 := by decide +kernel
  have htwo : (ofRatio false 2 1).bits = 1024 * 2 ^ 52 := by decide +kernel
  have hne : num ≠ 0 := by omega
  rw [hone, htwo]
  rcases hhigh.lt_or_eq with hlt | rfl
  · have hbits : (ofRatio false num den).bits =
        min (1022 * 2 ^ 52 + roundHalfEven (num * 2 ^ 52) den) (2047 * 2 ^ 52) := by
      simp [ofRatio, hne, unitExponent_eq h hlow hlt, signed, Nat.shiftLeft_eq]
    have hround : 2 ^ 52 ≤ roundHalfEven (num * 2 ^ 52) den ∧
        roundHalfEven (num * 2 ^ 52) den ≤ 2 ^ 53 :=
      roundHalfEven_bounds h (by linarith) (by linarith)
    omega
  · have hbits : (ofRatio false (2 * den) den).bits =
        min (1023 * 2 ^ 52 + roundHalfEven (2 * den * 2 ^ 51) den) (2047 * 2 ^ 52) := by
      simp [ofRatio, hne, unitExponent_two h, signed, Nat.shiftLeft_eq]
    have hround : 2 ^ 52 ≤ roundHalfEven (2 * den * 2 ^ 51) den ∧
        roundHalfEven (2 * den * 2 ^ 51) den ≤ 2 ^ 52 :=
      roundHalfEven_bounds h (by linarith) (by linarith)
    omega
end Binary64

/-- What is shown for the average lies between what would be shown for one and for two. -/
theorem Totals.average_bounds (t : Totals) (hlow : t.reviewed ≤ t.assigned)
    (hhigh : t.assigned ≤ 2 * t.reviewed) (hne : t.reviewed ≠ 0) :
    (Binary64.ofRatio false 1 1).bits ≤ t.average.bits ∧
      t.average.bits ≤ (Binary64.ofRatio false 2 1).bits := by
  rw [average, if_neg hne]
  exact Binary64.ofRatio_bounds (Nat.pos_of_ne_zero hne) hlow hhigh

end ReviewDesk
