/-
Module: CycleCost.Proofs.Arithmetic.Sign
Purpose: Turning or dropping the sign of a float is exact. The parts of a float stay parts of a float under either
  sign, and what is put together from such parts has just these parts.
Main exports: IsParts, isParts_unpack, IsParts.unpack_pack, unpack_neg, unpack_abs, isFinite_abs, abs_neg_eq
-/
import CycleCost.Proofs.Arithmetic.Value

namespace CycleCost

open Decimal Float.Model Float.Model.UnpackedFloat

theorem isFinite_eq (x : Float) : x.isFinite = x.toModel.unpack.isFinite := rfl

theorem unpack_pack_zero (s : Sign) : (Float.Model.pack (.zero s)).unpack = .zero s := by
  cases s <;> rfl

theorem unpack_pack_infinity (s : Sign) : (Float.Model.pack (.infinity s)).unpack = .infinity s := by
  cases s <;> rfl

/-- What the parts of a float can be. -/
inductive IsParts : UnpackedFloat → Prop where
  | notANumber : IsParts .notANumber
  | infinity (s : Sign) : IsParts (.infinity s)
  | zero (s : Sign) : IsParts (.zero s)
  | finite (s : Sign) {size : Magnitude} (canonical : size.Canonical) :
      IsParts (.finite s size.mantissa size.exponent canonical.positive)

/-- What a float unpacks to is one of the five shapes. -/
theorem isParts_unpack (x : Float) : IsParts x.toModel.unpack := by
  by_cases finite : x.isFinite
  · rcases parts_of_isFinite finite with ⟨s, zero⟩ | ⟨s, size, canonical, parts⟩
    · rw [zero]
      exact .zero s
    · rw [parts]
      exact .finite s canonical
  · rw [isFinite_eq] at finite
    cases shape : x.toModel.unpack with
    | infinity s => exact .infinity s
    | notANumber => exact .notANumber
    | zero s => exact absurd (by rw [shape]; rfl) finite
    | finite s mantissa exponent nonzero => exact absurd (by rw [shape]; rfl) finite

namespace IsParts

variable {u : UnpackedFloat}

/-- The shapes a float unpacks to survive packing. -/
theorem unpack_pack (parts : IsParts u) : (Float.Model.pack u).unpack = u := by
  cases parts with
  | notANumber => rfl
  | infinity s => exact unpack_pack_infinity s
  | zero s => exact unpack_pack_zero s
  | finite s canonical => exact Decimal.unpack_pack canonical

theorem neg (parts : IsParts u) : IsParts u.neg := by
  cases parts with
  | notANumber => exact .notANumber
  | infinity s => exact .infinity (-s)
  | zero s => exact .zero (-s)
  | finite s canonical => exact .finite (-s) canonical

theorem abs (parts : IsParts u) : IsParts u.abs := by
  cases parts with
  | notANumber => exact .notANumber
  | infinity => exact .infinity .positive
  | zero => exact .zero .positive
  | finite s canonical => exact .finite .positive canonical

end IsParts

/-- Negation acts on the parts of a float. -/
theorem unpack_neg (x : Float) : (-x).toModel.unpack = x.toModel.unpack.neg := (isParts_unpack x).neg.unpack_pack

theorem unpack_abs (x : Float) : x.abs.toModel.unpack = x.toModel.unpack.abs := (isParts_unpack x).abs.unpack_pack

theorem isFinite_abs (x : Float) : x.abs.isFinite = x.isFinite := by
  rw [isFinite_eq, isFinite_eq, unpack_abs]
  cases shape : x.toModel.unpack <;> rfl

/-- Floats of one size have one absolute value. -/
theorem abs_congr {x y : Float} (size : x.toModel.unpack.abs = y.toModel.unpack.abs) : x.abs = y.abs :=
  congrArg (fun parts => Float.ofModel (.pack parts)) size

theorem abs_abs_eq (x : Float) : x.abs.abs = x.abs := by
  apply abs_congr
  rw [unpack_abs]
  cases x.toModel.unpack <;> rfl

/-- A float and its opposite have one absolute value. -/
theorem abs_neg_eq (x : Float) : (-x).abs = x.abs := by
  apply abs_congr
  rw [unpack_neg]
  cases x.toModel.unpack <;> rfl

end CycleCost
