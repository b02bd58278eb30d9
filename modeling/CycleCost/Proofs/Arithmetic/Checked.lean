/-
Module: CycleCost.Proofs.Arithmetic.Checked
Purpose: Arithmetic that notices a division by zero. A quotient by zero is a value of its own, and whatever is
  computed from it is undefined as well, so a formula with a defined result has met no such quotient.
Main exports: Checked, Checked.value_div, Checked.clamp_value, Checked.sum_value, Checked.mean_value
-/
import CycleCost.Proofs.Arithmetic.Exact

namespace CycleCost

/-- A number, or the outcome of a computation that has divided by zero. -/
inductive Checked (K : Type) where
  | value (x : K)
  | undefined

namespace Checked

variable {K : Type}

/-- An operation on numbers; without both numbers there is no result. -/
def lift (f : K → K → K) : Checked K → Checked K → Checked K
  | value x, value y => value (f x y)
  | _, _ => undefined

/-- A function of one number. -/
def map (f : K → K) : Checked K → Checked K
  | value x => value (f x)
  | undefined => undefined

/-- A comparison, which fails without both numbers. -/
def both (p : K → K → Bool) : Checked K → Checked K → Bool
  | value x, value y => p x y
  | _, _ => false

variable [Scalar K]

/-- The quotient, where the divisor is not zero. -/
def quotient : Checked K → Checked K → Checked K
  | value x, value y => if Scalar.eq y Scalar.zero then undefined else value (x / y)
  | _, _ => undefined

instance : Scalar (Checked K) where
  add := lift (· + ·)
  sub := lift (· - ·)
  mul := lift (· * ·)
  div := quotient
  ofNat n := value (Scalar.ofNat n)
  sumStart := value Scalar.sumStart
  magnitude := map Scalar.magnitude
  root := map Scalar.root
  wholePart
    | value x => Scalar.wholePart x
    | undefined => 0
  lt := both Scalar.lt
  eq := both Scalar.eq
  finite
    | value x => Scalar.finite x
    | undefined => false
  totalLe := both Scalar.totalLe
  shown
    | value x => Scalar.shown x
    | undefined => 0.0 / 0.0

/-! ### Computing with numbers -/

@[simp] theorem value_add (x y : K) : value x + value y = value (x + y) := rfl

@[simp] theorem value_sub (x y : K) : value x - value y = value (x - y) := rfl

@[simp] theorem value_mul (x y : K) : value x * value y = value (x * y) := rfl

/-- Division with a check for zero is the field's division where the divisor is not zero. -/
theorem value_div {x y : K} (nonzero : Scalar.eq y Scalar.zero = false) : value x / value y = value (x / y) := by
  change (if Scalar.eq y Scalar.zero then undefined else value (x / y)) = value (x / y)
  rw [nonzero, if_neg Bool.false_ne_true]

theorem clamp_value (low high x : K) :
    Scalar.clamp (value low) (value high) (value x) = value (Scalar.clamp low high x) := by
  rw [Scalar.clamp, Scalar.clamp, apply_ite value, apply_ite value]
  rfl

theorem sum_value (xs : List K) : Scalar.sum (xs.map value) = value (Scalar.sum xs) := by
  rw [Scalar.sum, Scalar.sum, List.foldl_map]
  exact List.foldl_hom value fun _ _ => rfl

section

variable {F : Type} [LinearOrder F] [ScalarField F] [ExactScalar F]

theorem value_div_of_ne {x y : F} (nonzero : y ≠ 0) : value x / value y = value (x / y) := by
  apply value_div
  rw [ExactScalar.eq_eq, Scalar.zero_eq, decide_eq_false nonzero]

/-- The mean of some numbers divides by their number, which is not zero. -/
theorem mean_value {xs : List F} (present : xs ≠ []) :
    Scalar.mean (xs.map value) = value (Scalar.mean xs) := by
  have size : (Scalar.ofNat xs.length : F) ≠ 0 := by
    rw [ExactScalar.ofNat_eq]
    exact Nat.cast_ne_zero.2 (mt List.length_eq_zero_iff.1 present)
  rw [Scalar.mean, Scalar.mean, sum_value, List.length_map]
  exact value_div_of_ne size

end

end Checked

end CycleCost
