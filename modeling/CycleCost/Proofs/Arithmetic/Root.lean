/-
Module: CycleCost.Proofs.Arithmetic.Root
Purpose: Exact arithmetic in which roots are exact too, as lengths of columns need it. The real numbers are such
  an arithmetic.
Main exports: ExactRoots, Scalar.root_pos, Scalar.le_root_of_mul_self_le
-/
import CycleCost.Proofs.Arithmetic.Exact

namespace CycleCost

/-- An ordered field in which nothing is rounded and a number that is not negative has its root. -/
class ExactRoots (K : Type) [LinearOrder K] [ScalarField K] : Prop extends ExactScalar K where
  root_nonneg (x : K) : 0 ≤ Scalar.root x
  root_mul_self (x : K) : 0 ≤ x → Scalar.root x * Scalar.root x = x

/-- The real numbers. All are finite, so none is ever shown as a float that is not. -/
noncomputable instance : Scalar ℝ where
  ofNat n := n
  sumStart := 0
  magnitude x := |x|
  root := Real.sqrt
  wholePart x := ⌊x⌋₊
  lt x y := x < y
  eq x y := x = y
  finite _ := true
  totalLe x y := x ≤ y
  shown _ := 0

noncomputable instance : ScalarField ℝ where
  __ := (inferInstance : Field ℝ)
  __ := (inferInstance : Scalar ℝ)

instance : ExactRoots ℝ where
  ofNat_eq _ := rfl
  sumStart_eq := rfl
  magnitude_eq _ := rfl
  wholePart_le _ positive := Nat.floor_le positive
  lt_wholePart _ _ := Nat.lt_floor_add_one _
  lt_eq _ _ := rfl
  eq_eq _ _ := rfl
  finite_eq _ := rfl
  totalLe_eq _ _ := rfl
  root_nonneg := Real.sqrt_nonneg
  root_mul_self _ positive := Real.mul_self_sqrt positive

namespace Scalar

variable {K : Type} [LinearOrder K] [ScalarField K] [ExactRoots K] {x y : K}

theorem root_pos (positive : 0 < x) : 0 < root x := by
  apply lt_of_le_of_ne (ExactRoots.root_nonneg x)
  intro zero
  have square := ExactRoots.root_mul_self x positive.le
  rw [← zero, mul_zero] at square
  exact positive.ne square

/-- A number whose square is at most `x` is at most the root of `x`. -/
theorem le_root_of_mul_self_le (below : y * y ≤ x) : y ≤ root x := by
  have nonneg : 0 ≤ x := (mul_self_nonneg y).trans below
  apply nonneg_le_nonneg_of_sq_le_sq (ExactRoots.root_nonneg x)
  rw [ExactRoots.root_mul_self x nonneg]
  exact below

end Scalar

end CycleCost
