/-
Module: CycleCost.Proofs.Arithmetic.Exact
Purpose: Arithmetic without rounding, as an interface: the numbers are an ordered field, the operations of the
  formulas are those of the field, and every value is finite. The root is left open, so a statement over this
  interface holds for each choice of it. Sums and means get their textbook meaning here.
Main exports: ScalarField, ExactScalar, Scalar.zero_eq, Scalar.one_eq, Scalar.finitePositive_iff,
  Scalar.larger_eq, Scalar.smaller_eq, Scalar.sum_eq, Scalar.mean_eq, Scalar.mean_map_affine, Scalar.mean_map_add
-/
import Mathlib
import CycleCost.Proofs.Regression.Exact

namespace CycleCost

/-- A field whose operations are those of the formulas. -/
class ScalarField (K : Type) extends Field K, Scalar K

/-- An ordered field in which nothing is rounded and every value is finite. -/
class ExactScalar (K : Type) [LinearOrder K] [ScalarField K] : Prop extends IsStrictOrderedRing K where
  ofNat_eq (n : ℕ) : (Scalar.ofNat n : K) = n
  sumStart_eq : (Scalar.sumStart : K) = 0
  magnitude_eq (x : K) : Scalar.magnitude x = |x|
  wholePart_le (x : K) : 0 ≤ x → (Scalar.wholePart x : K) ≤ x
  lt_wholePart (x : K) : 0 ≤ x → x < Scalar.wholePart x + 1
  lt_eq (x y : K) : Scalar.lt x y = decide (x < y)
  eq_eq (x y : K) : Scalar.eq x y = decide (x = y)
  finite_eq (x : K) : Scalar.finite x = true
  totalLe_eq (x y : K) : Scalar.totalLe x y = decide (x ≤ y)

attribute [simp] ExactScalar.ofNat_eq ExactScalar.sumStart_eq ExactScalar.lt_eq ExactScalar.eq_eq
  ExactScalar.finite_eq ExactScalar.totalLe_eq

instance : ScalarField ℚ where
  __ := (inferInstance : Field ℚ)
  __ := (inferInstance : Scalar ℚ)

/-- The rational numbers are exact. -/
instance : ExactScalar ℚ where
  ofNat_eq _ := rfl
  sumStart_eq := rfl
  magnitude_eq _ := rfl
  wholePart_le _ positive := Nat.floor_le positive
  lt_wholePart _ _ := Nat.lt_floor_add_one _
  lt_eq _ _ := rfl
  eq_eq _ _ := rfl
  finite_eq _ := rfl
  totalLe_eq _ _ := rfl

namespace Scalar

variable {K : Type} [LinearOrder K] [ScalarField K] [ExactScalar K]

@[simp] theorem zero_eq : (zero : K) = 0 := by rw [zero, ExactScalar.ofNat_eq, Nat.cast_zero]

@[simp] theorem one_eq : (one : K) = 1 := by rw [one, ExactScalar.ofNat_eq, Nat.cast_one]

theorem le_eq (x y : K) : le x y = decide (x ≤ y) := by
  rw [le, ExactScalar.lt_eq, ExactScalar.eq_eq, Bool.eq_iff_iff, Bool.or_eq_true, decide_eq_true_iff,
    decide_eq_true_iff, decide_eq_true_iff, le_iff_lt_or_eq]

/-- Without infinities, a usable cost is a positive one. -/
theorem finitePositive_iff {x : K} : finitePositive x ↔ 0 < x := by
  rw [finitePositive, ExactScalar.finite_eq, Bool.true_and, ExactScalar.lt_eq, zero_eq, decide_eq_true_iff]

/-- Every value is a number, so no operand yields to the other. -/
theorem larger_eq (x y : K) : larger x y = max x y := by
  by_cases below : x < y
  · simp [larger, below, below.le]
  · simp [larger, below, not_lt.1 below]

theorem smaller_eq (x y : K) : smaller x y = min x y := by
  by_cases above : y < x
  · simp [smaller, above, above.le]
  · simp [smaller, above, not_lt.1 above]

theorem sum_eq (xs : List K) : sum xs = xs.sum := by
  rw [sum, ExactScalar.sumStart_eq, List.sum_eq_foldl]

/-- Over a field the mean is the sum over the number of samples. -/
theorem mean_eq (xs : List K) : mean xs = xs.sum / xs.length := by
  rw [mean, sum_eq, ExactScalar.ofNat_eq]

/-- The mean goes along with a change of unit and origin. -/
theorem mean_map_affine {xs : List K} (present : xs ≠ []) (c d : K) : mean (xs.map (c * · + d)) = c * mean xs + d := by
  have size : (xs.length : K) ≠ 0 := Nat.cast_ne_zero.2 (mt List.length_eq_zero_iff.1 present)
  have total : (xs.map (c * · + d)).sum = c * xs.sum + xs.length * d := by
    rw [List.sum_map_add, List.sum_map_mul_left, List.map_id', List.map_const', List.sum_replicate, nsmul_eq_mul]
  rw [mean_eq, mean_eq, total, List.length_map]
  field_simp

/-- The mean moves with its numbers. -/
theorem mean_map_add {xs : List K} (present : xs ≠ []) (d : K) :
    mean (xs.map (· + d)) = mean xs + d := by
  have moved := mean_map_affine present 1 d
  simp only [one_mul] at moved
  exact moved

end Scalar

end CycleCost
