/-
Module: CycleCost.Proofs.Arithmetic.Float
Purpose: Which results of float operations can be finite. An operand that is not finite is not mended by a
  sum, a difference or a product, nor as the dividend of a quotient, so a finite result vouches for its operands.
Main exports: isFinite_of_add, isFinite_of_sub, isFinite_of_mul, isFinite_of_div, beq_zero_of_pos
-/
import Mathlib

namespace CycleCost

open Float.Model Float.Model.UnpackedFloat

/-- Packing may lose a finite result to overflow, but it makes no infinity finite. -/
theorem isFinite_of_pack {u : UnpackedFloat} (finite : (Float.Model.pack u).unpack.isFinite) :
    u.isFinite := by
  cases u with
  | infinity s => cases s <;> cases finite
  | notANumber => cases finite
  | zero s => rfl
  | finite s mantissa exponent nonzero => rfl

variable {a b : Float}

/-- A sum is finite only when both terms are. -/
theorem isFinite_of_add (finite : (a + b).isFinite) : a.isFinite ∧ b.isFinite := by
  have sum : (UnpackedFloat.add .binary64 a.toModel.unpack b.toModel.unpack).isFinite :=
    isFinite_of_pack finite
  change a.toModel.unpack.isFinite = true ∧ b.toModel.unpack.isFinite = true
  rcases first : a.toModel.unpack with s | _ | _ | _ <;>
    rcases second : b.toModel.unpack with t | _ | _ | _ <;>
    simp [first, second, UnpackedFloat.add, UnpackedFloat.isFinite] at sum ⊢
  -- Two infinities give an infinity or, with opposite signs, no number.
  cases s <;> cases t <;> cases sum

/-- A difference is finite only when both terms are. -/
theorem isFinite_of_sub (finite : (a - b).isFinite) : a.isFinite ∧ b.isFinite := by
  have difference : (UnpackedFloat.sub .binary64 a.toModel.unpack b.toModel.unpack).isFinite :=
    isFinite_of_pack finite
  change a.toModel.unpack.isFinite = true ∧ b.toModel.unpack.isFinite = true
  rcases first : a.toModel.unpack with s | _ | _ | _ <;>
    rcases second : b.toModel.unpack with t | _ | _ | _ <;>
    simp [first, second, UnpackedFloat.sub, UnpackedFloat.isFinite] at difference ⊢
  cases s <;> cases t <;> cases difference

/-- A product is finite only when both factors are. -/
theorem isFinite_of_mul (finite : (a * b).isFinite) : a.isFinite ∧ b.isFinite := by
  have product : (UnpackedFloat.mul .binary64 a.toModel.unpack b.toModel.unpack).isFinite :=
    isFinite_of_pack finite
  change a.toModel.unpack.isFinite = true ∧ b.toModel.unpack.isFinite = true
  cases first : a.toModel.unpack <;> cases second : b.toModel.unpack <;>
    simp [first, second, UnpackedFloat.mul, UnpackedFloat.isFinite] at product ⊢

/-- A quotient is finite only when its dividend is. -/
theorem isFinite_of_div (finite : (a / b).isFinite) : a.isFinite := by
  have quotient : (UnpackedFloat.div .binary64 a.toModel.unpack b.toModel.unpack).isFinite :=
    isFinite_of_pack finite
  change a.toModel.unpack.isFinite = true
  cases first : a.toModel.unpack <;> cases second : b.toModel.unpack <;>
    simp [first, second, UnpackedFloat.div, UnpackedFloat.isFinite] at quotient ⊢

/-- A float above zero is not zero. -/
theorem beq_zero_of_pos (positive : 0 < a) : (a == 0) = false := by
  have zero : (0 : Float).toModel.unpack = .zero .positive := rfl
  have above : UnpackedFloat.lt (0 : Float).toModel.unpack a.toModel.unpack = true :=
    of_decide_eq_true positive
  change a.toModel.unpack.beq (0 : Float).toModel.unpack = false
  rw [zero] at above ⊢
  cases shape : a.toModel.unpack with
  | zero s =>
    rw [shape] at above
    cases above
  | notANumber => rfl
  | infinity s => cases s <;> rfl
  | finite s mantissa exponent nonzero => cases s <;> rfl

end CycleCost
