/-
Module: CycleCost.Proofs.Accuracy.Distance
Purpose: The error of a prediction is a distance, when nothing is rounded. One more than the error is the larger
  cost by the smaller one, so along a chain of comparisons errors compound as ratios do, and too much scores like
  too little. The comparison of a coarse timing with a supplied cost draws its line by the same distance.
Main exports: Accuracy.ratio, Accuracy.ratio_le_iff, Accuracy.ratio_le_mul, Accuracy.relativeError_eq_ratio,
  CrossCheck.agrees_iff_ratio_le, Accuracy.error_is_distance
-/
import CycleCost.Proofs.Arithmetic.Exact
import CycleCost.Proofs.Accuracy.Evaluation
import CycleCost.Proofs.Calibration.Estimate

namespace CycleCost

variable {K : Type} [LinearOrder K]

/-! ### The ratio of two costs -/

namespace Accuracy

section

variable [Field K]

/-- The larger of two costs by the smaller one. -/
def ratio (a b : K) : K := max a b / min a b

/-- The ratio of two sizes does not depend on their order. -/
theorem ratio_comm (a b : K) : ratio a b = ratio b a := by
  rw [ratio, ratio, max_comm, min_comm]

theorem ratio_of_le {a b : K} (below : b ≤ a) : ratio a b = a / b := by
  rw [ratio, max_eq_left below, min_eq_right below]

/-- Two positive sizes have ratio one exactly when they are equal. -/
theorem ratio_eq_one_iff {a b : K} (first : 0 < a) (second : 0 < b) : ratio a b = 1 ↔ a = b := by
  rw [ratio, div_eq_one_iff_eq (lt_min first second).ne', sup_eq_inf]

variable [IsStrictOrderedRing K] {a b c : K}

theorem ratio_nonneg (first : 0 < a) (second : 0 < b) : 0 ≤ ratio a b :=
  div_nonneg (first.le.trans (le_max_left a b)) (lt_min first second).le

/-- A common positive factor cancels in the ratio. -/
theorem ratio_mul_left {scale : K} (positive : 0 < scale) (a b : K) :
    ratio (scale * a) (scale * b) = ratio a b := by
  rw [ratio, ratio, ← mul_max_of_nonneg a b positive.le, ← mul_min_of_nonneg a b positive.le,
    mul_div_mul_left _ _ positive.ne']

theorem ratio_mul_self {k : K} (more : 1 ≤ k) (positive : 0 < b) : ratio (k * b) b = k := by
  rw [ratio_of_le (le_mul_of_one_le_left positive.le more), mul_div_cancel_right₀ k positive.ne']

/-- A bound on the ratio is a bound on each of the two costs by the other. -/
theorem ratio_le_iff (first : 0 < a) (second : 0 < b) {t : K} : ratio a b ≤ t ↔ a ≤ t * b ∧ b ≤ t * a := by
  -- By symmetry the first cost is the larger one; then its bound gives the other one as well.
  wlog below : b ≤ a generalizing a b
  · rw [ratio_comm, this second first (le_of_not_ge below), and_comm]
  rw [ratio_of_le below, div_le_iff₀ second]
  refine ⟨fun bounded => ⟨bounded, ?_⟩, And.left⟩
  have one_le : 1 ≤ t := le_of_mul_le_mul_right ((one_mul b).trans_le (below.trans bounded)) second
  exact below.trans (le_mul_of_one_le_left first.le one_le)

/-- Ratios compound along a chain of costs. -/
theorem ratio_le_mul (first : 0 < a) (second : 0 < b) (third : 0 < c) : ratio a c ≤ ratio a b * ratio b c := by
  obtain ⟨ab, ba⟩ := (ratio_le_iff first second).1 le_rfl
  obtain ⟨bc, cb⟩ := (ratio_le_iff second third).1 le_rfl
  apply (ratio_le_iff first third).2
  constructor
  · calc a ≤ ratio a b * b := ab
      _ ≤ ratio a b * (ratio b c * c) := mul_le_mul_of_nonneg_left bc (ratio_nonneg first second)
      _ = ratio a b * ratio b c * c := (mul_assoc _ _ _).symm
  · calc c ≤ ratio b c * b := cb
      _ ≤ ratio b c * (ratio a b * a) := mul_le_mul_of_nonneg_left ba (ratio_nonneg second third)
      _ = ratio a b * ratio b c * a := by rw [mul_left_comm, mul_assoc]

end

end Accuracy

/-! ### The two measures of disagreement -/

variable [ScalarField K] [ExactScalar K] {a b : K}

/-- The error of positive costs is what their ratio exceeds one by. -/
theorem Accuracy.relativeError_eq_ratio (first : 0 < a) (second : 0 < b) :
    relativeError a b = .ok (ratio a b - 1) := by
  refine relativeError_eq_ok_iff.2 ⟨Scalar.finitePositive_iff.2 first, Scalar.finitePositive_iff.2 second, ?_⟩
  rw [ExactScalar.magnitude_eq, Scalar.smaller_eq, ← max_sub_min_eq_abs', sub_div,
    div_self (lt_min first second).ne', ratio]

/-- A measured cost agrees with a supplied one when their ratio is within the tolerance. Both ends of the
    interval belong to it. -/
theorem CrossCheck.agrees_iff_ratio_le (measured : 0 < a) (supplied : 0 < b) :
    (compare a b).agrees ↔ Accuracy.ratio a b ≤ tolerance := by
  have positive : (0 : K) < tolerance := by
    rw [tolerance, ExactScalar.ofNat_eq]
    exact Nat.cast_pos.2 Nat.two_pos
  rw [Accuracy.ratio_le_iff measured supplied, compare, Scalar.le_eq, Scalar.le_eq, Scalar.one_eq,
    Bool.and_eq_true, decide_eq_true_iff, decide_eq_true_iff, div_le_div_iff₀ positive supplied, one_mul,
    div_le_iff₀ supplied, mul_comm a, and_comm]

/-- The error of positive costs is one less than the larger by the smaller one. So it is symmetric, zero for
    equal costs only, free of the unit, and the same for a multiple and a fraction, and along a chain of costs it
    compounds. A timing agrees with a supplied cost exactly when their error is within the tolerance. -/
theorem Accuracy.error_is_distance (first : 0 < a) (second : 0 < b) :
    ∃ e, relativeError a b = .ok e ∧ 1 + e = max a b / min a b ∧
      relativeError b a = .ok e ∧
      (e = 0 ↔ a = b) ∧
      (∀ scale, 0 < scale → relativeError (scale * a) (scale * b) = .ok e) ∧
      (∀ k, 1 ≤ k → relativeError (k * b) b = .ok (k - 1) ∧ relativeError b (k * b) = .ok (k - 1)) ∧
      (∀ c, 0 < c → ∃ direct onward, relativeError a c = .ok direct ∧ relativeError b c = .ok onward ∧
        1 + direct ≤ (1 + e) * (1 + onward)) ∧
      (∀ frequencyGhz timing, 0 < frequencyGhz → CoarseTiming.cpi timing frequencyGhz = some a →
        ∃ estimate check, Estimate.analytical b frequencyGhz (some timing) = .ok estimate ∧
          estimate.crossCheck = some check ∧ check.empiricalCpi = a ∧
          (check.agrees ↔ e ≤ CrossCheck.tolerance - 1)) := by
  refine ⟨ratio a b - 1, relativeError_eq_ratio first second, add_sub_cancel _ _, ?symmetric, ?zero, ?scaled,
    ?multiple, ?chain, ?check⟩
  case symmetric => rw [relativeError_eq_ratio second first, ratio_comm]
  case zero => rw [sub_eq_zero, ratio_eq_one_iff first second]
  case scaled =>
    intro scale positive
    rw [relativeError_eq_ratio (mul_pos positive first) (mul_pos positive second), ratio_mul_left positive]
  case multiple =>
    intro k more
    have positive : 0 < k * b := mul_pos (zero_lt_one.trans_le more) second
    rw [relativeError_eq_ratio positive second, relativeError_eq_ratio second positive, ratio_comm b,
      ratio_mul_self more second]
    exact ⟨rfl, rfl⟩
  case chain =>
    intro c third
    refine ⟨_, _, relativeError_eq_ratio first third, relativeError_eq_ratio second third, ?_⟩
    simp only [add_sub_cancel]
    exact ratio_le_mul first second third
  case check =>
    intro frequencyGhz timing running timed
    have priced := Estimate.analytical_of_usable (Scalar.finitePositive_iff.2 second)
      (Scalar.finitePositive_iff.2 running) (some timing)
    rw [Option.bind_some, timed, Option.map_some] at priced
    refine ⟨_, _, priced, rfl, rfl, ?_⟩
    rw [CrossCheck.agrees_iff_ratio_le first second, sub_le_sub_iff_right]

/-- A measured cost of half the supplied one, which is as far from it as the tolerance allows. -/
theorem Accuracy.error_is_distance_half : ∃ (e : ℚ) (estimate : Estimate ℚ) (check : CrossCheck ℚ),
    relativeError 1 2 = .ok e ∧ 1 + e = 2 ∧ relativeError 2 1 = .ok e ∧
    Estimate.analytical 2 1 (some ⟨1, 1000000⟩) = .ok estimate ∧ estimate.crossCheck = some check ∧
    check.agrees := by
  have measured : CoarseTiming.cpi (⟨1, 1000000⟩ : CoarseTiming ℚ) 1 = some 1 := by decide +kernel
  obtain ⟨e, computed, ratio, symmetric, -, -, -, -, checked⟩ :=
    error_is_distance (show (0 : ℚ) < 1 by decide) (show (0 : ℚ) < 2 by decide)
  obtain ⟨estimate, check, priced, compared, -, agrees⟩ := checked 1 ⟨1, 1000000⟩ one_pos measured
  have twice : 1 + e = 2 := ratio.trans (by norm_num)
  have near : e ≤ CrossCheck.tolerance - 1 := (eq_sub_of_add_eq' twice).le
  exact ⟨e, estimate, check, computed, twice, symmetric, priced, compared, agrees.2 near⟩

end CycleCost
