/-
Module: CycleCost.Proofs.Decimal.Binary
Purpose: Floats and their parts. What is read off the bits of a finite float is its mantissa, exponent and
  sign in the canonical form, and putting such parts together gives a float with just these parts.
Main exports: decode_canonical, unpack_of_decode, pack_unpack, unpack_pack
-/
import CycleCost.Proofs.Decimal.Rounding

namespace CycleCost.Decimal

open Float.Model Float.Model.UnpackedFloat

/-! ### Operations -/

section

variable (a b : Float)

theorem add_eq_pack : a + b = .ofModel (.pack (UnpackedFloat.add .binary64 a.toModel.unpack b.toModel.unpack)) := rfl

theorem sub_eq_pack : a - b = .ofModel (.pack (UnpackedFloat.sub .binary64 a.toModel.unpack b.toModel.unpack)) := rfl

theorem mul_eq_pack : a * b = .ofModel (.pack (UnpackedFloat.mul .binary64 a.toModel.unpack b.toModel.unpack)) := rfl

theorem div_eq_pack : a / b = .ofModel (.pack (UnpackedFloat.div .binary64 a.toModel.unpack b.toModel.unpack)) := rfl

end

/-! ### The fields of a bit pattern -/

/-- The bits of a binary64 float. -/
abbrev Bits := BitVec Format.binary64.numBits

variable (b : Bits)

theorem toNat_unpackMantissa : (unpackMantissa b).toNat = b.toNat % 2 ^ 52 := by
  simp [unpackMantissa]

theorem toNat_unpackExponent : (unpackExponent b).toNat = b.toNat / 2 ^ 52 % 2 ^ 11 := by
  simp [unpackExponent, Nat.shiftRight_eq_div_pow]

/-- The sign as the field of a float has it. -/
def signOf (negative : Bool) : Sign := if negative then .negative else .positive

theorem toNat_unpackSign : (unpackSign b).toNat = b.toNat / 2 ^ 63 := by
  have bound : b.toNat < 2 ^ 64 := b.isLt
  simp [unpackSign, Nat.shiftRight_eq_div_pow]
  omega

theorem ofBitVec_unpackSign : Sign.ofBitVec (unpackSign b) = signOf (decide (2 ^ 63 ≤ b.toNat)) := by
  have bound : b.toNat < 2 ^ 64 := b.isLt
  have clear : b.toNat / 2 ^ 63 = 0 ↔ ¬ 2 ^ 63 ≤ b.toNat := by omega
  simp only [Sign.ofBitVec, signOf, ← BitVec.toNat_inj, toNat_unpackSign, BitVec.toNat_zero, clear]
  by_cases negative : 2 ^ 63 ≤ b.toNat <;>
    simp only [negative, not_true, not_false_eq_true, decide_true, decide_false, if_true, if_false,
      Bool.false_eq_true]

/-! ### Floats -/

section

variable (x : Float)

/-- The bit pattern of a float. -/
def bitsOf : Bits := x.toModel.toBits.toBitVec

/-- The exponent field. -/
def biasedOf : Nat := (bitsOf x).toNat / 2 ^ 52 % 2 ^ 11

/-- The fraction field. -/
def fractionOf : Nat := (bitsOf x).toNat % 2 ^ 52

/-- The sign field. -/
def negativeOf : Bool := decide (2 ^ 63 ≤ (bitsOf x).toNat)

/-- The float read from its bit fields, one case for each kind. -/
theorem decode_eq : decode x =
    if biasedOf x = 2047 then
      if fractionOf x = 0 then .infinite (negativeOf x) else .notNumber
    else if biasedOf x = 0 then
      if fractionOf x = 0 then .zero (negativeOf x)
      else .finite (negativeOf x) ⟨fractionOf x, -1074, false⟩
    else .finite (negativeOf x)
      ⟨fractionOf x + 2 ^ 52, (biasedOf x : Int) - 1075, fractionOf x = 0 && 1 < biasedOf x⟩ := rfl

/-- The parts of the float model read from the same bit fields. -/
theorem unpack_eq : x.toModel.unpack =
    if biasedOf x = 2047 then
      if fractionOf x = 0 then .infinity (signOf (negativeOf x)) else .notANumber
    else if biasedOf x = 0 then
      if zero : fractionOf x = 0 then .zero (signOf (negativeOf x))
      else .finite (signOf (negativeOf x)) (fractionOf x) (-1074) (Nat.pos_of_ne_zero zero)
    else .finite (signOf (negativeOf x)) (fractionOf x + 2 ^ 52) ((biasedOf x : Int) - 1075)
      (Nat.add_pos_right _ (by decide)) := by
  have exponent : (unpackExponent (bitsOf x)).toNat = biasedOf x := toNat_unpackExponent _
  have mantissa : (unpackMantissa (bitsOf x)).toNat = fractionOf x := toNat_unpackMantissa _
  have sign : Sign.ofBitVec (unpackSign (bitsOf x)) = signOf (negativeOf x) := ofBitVec_unpackSign _
  have infinite : unpackExponent (bitsOf x) = -1#_ ↔ biasedOf x = 2047 := by
    rw [← BitVec.toNat_inj, exponent]
    rfl
  have least : unpackExponent (bitsOf x) = 0#_ ↔ biasedOf x = 0 := by
    rw [← BitVec.toNat_inj, exponent]
    rfl
  have empty : unpackMantissa (bitsOf x) = 0#_ ↔ fractionOf x = 0 := by
    rw [← BitVec.toNat_inj, mantissa]
    rfl
  have full : (1#1 ++ unpackMantissa (bitsOf x)).toNat = fractionOf x + 2 ^ 52 := by
    rw [BitVec.toNat_append, ← Nat.shiftLeft_add_eq_or_of_lt (unpackMantissa (bitsOf x)).isLt, mantissa,
      Nat.shiftLeft_eq, Nat.add_comm]
    rfl
  have unfolded : x.toModel.unpack = UnpackedFloat.unpack .binary64 (bitsOf x) := rfl
  rw [unfolded, UnpackedFloat.unpack]
  simp only [infinite, least, empty, full, sign, exponent, mantissa]
  by_cases zero : biasedOf x = 0
  · simp only [zero]
    rfl
  · simp only [zero, if_false]
    rfl

variable {x} {negative : Bool} {size : Magnitude}

theorem biasedOf_lt (x : Float) : biasedOf x < 2048 := Nat.mod_lt _ (by decide)

theorem fractionOf_lt (x : Float) : fractionOf x < 2 ^ 52 := Nat.mod_lt _ (by decide)

/-- What is read off a float is in the canonical form. -/
theorem decode_canonical (decoded : decode x = .finite negative size) : size.Canonical := by
  have fraction := fractionOf_lt x
  have biased := biasedOf_lt x
  rw [decode_eq] at decoded
  split at decoded
  · split at decoded <;> cases decoded
  · split at decoded
    · split at decoded
      · cases decoded
      · cases decoded
        exact ⟨by dsimp only; omega, by dsimp only; omega, le_rfl, by dsimp only; omega, .inl rfl,
          by simp⟩
    · cases decoded
      refine ⟨by dsimp only; omega, by dsimp only; omega, by dsimp only; omega, by dsimp only; omega,
        .inr (by dsimp only; omega), ?_⟩
      simp only [Bool.and_eq_true, decide_eq_true_eq]
      omega

/-- The parts of a finite float are those that its operations work with. -/
theorem unpack_of_decode (decoded : decode x = .finite negative size) :
    x.toModel.unpack = .finite (signOf negative) size.mantissa size.exponent
      (decode_canonical decoded).positive := by
  have parts := decoded
  rw [decode_eq] at parts
  rw [unpack_eq]
  split at parts
  · split at parts <;> cases parts
  · next ordinary =>
    split at parts
    · next least =>
      split at parts
      · cases parts
      · next nonzero =>
        cases parts
        simp [least, nonzero]
    · next full =>
      cases parts
      simp [ordinary, full]

theorem unpack_of_decode_zero (decoded : decode x = .zero negative) :
    x.toModel.unpack = .zero (signOf negative) := by
  have parts := decoded
  rw [decode_eq] at parts
  rw [unpack_eq]
  split at parts
  · split at parts <;> cases parts
  · split at parts
    · next least =>
      split at parts
      · next zero =>
        cases parts
        simp [least, zero]
      · cases parts
    · cases parts

/-- A float is finite when it has a size or is a zero. -/
theorem isFinite_iff (x : Float) : x.isFinite ↔
    (∃ negative, decode x = .zero negative) ∨ ∃ negative size, decode x = .finite negative size := by
  have unfolded : x.isFinite = x.toModel.unpack.isFinite := rfl
  rw [unfolded, unpack_eq, decode_eq]
  by_cases top : biasedOf x = 2047
  · by_cases zero : fractionOf x = 0 <;> simp [top, zero, UnpackedFloat.isFinite]
  · by_cases least : biasedOf x = 0
    · by_cases zero : fractionOf x = 0 <;> simp [least, zero, UnpackedFloat.isFinite]
    · simp [top, least, UnpackedFloat.isFinite]

end

/-! ### Packing -/

theorem log2_of_full {m : Nat} (full : 2 ^ 52 ≤ m) (small : m < 2 ^ 53) : m.log2 = 52 := by
  refine (Nat.log2_eq_iff (by omega)).2 ⟨full, small⟩

/-- A float in the canonical form is packed field by field. -/
theorem pack_finite {s : Sign} {size : Magnitude} (canonical : size.Canonical) :
    UnpackedFloat.pack .binary64 (.finite s size.mantissa size.exponent canonical.positive) =
      if 2 ^ 52 ≤ size.mantissa then
        packComponents .binary64 s (.ofNat 11 (size.exponent + 1075).toNat) (.ofNat 52 size.mantissa)
      else packComponents .binary64 s 0 (.ofNat 52 size.mantissa) := by
  have least := canonical.least
  have most := canonical.most
  have biased : (size.exponent + Format.binary64.exponentBias +
      Format.binary64.mantissaBitsWithoutImplicit).toNat = (size.exponent + 1075).toNat := by
    congr 1
    simp [Format.exponentBias]
    omega
  rw [UnpackedFloat.pack]
  simp only [biased]
  rw [if_neg (by simp; omega)]
  by_cases full : 2 ^ 52 ≤ size.mantissa
  · rw [if_pos full, if_pos (by rw [log2_of_full full canonical.small]; rfl)]
  · have short : size.mantissa.log2 < 52 := (Nat.log2_lt canonical.positive.ne').2 (by omega)
    rw [if_neg full, if_neg (by simp [Format.mantissaBits]; omega)]
    rfl

/-- A float is made of the parts that its operations work with. -/
theorem pack_unpack (x : Float) : Float.Model.pack x.toModel.unpack = x.toModel := by
  rcases x with ⟨⟨⟨bits⟩, valid⟩⟩
  have same : UnpackedFloat.pack .binary64 (UnpackedFloat.unpack .binary64 bits) = bits :=
    pack_unpack_of_valid valid
  simp only [Float.Model.pack, Float.Model.unpack, same]

/-- The decoded parts pack to the float they came from. -/
theorem pack_of_decode {x : Float} {negative : Bool} {size : Magnitude}
    (decoded : decode x = .finite negative size) :
    Float.Model.pack (.finite (signOf negative) size.mantissa size.exponent
      (decode_canonical decoded).positive) = x.toModel := by
  rw [← unpack_of_decode decoded, pack_unpack]

theorem pack_of_decode_zero {x : Float} {negative : Bool} (decoded : decode x = .zero negative) :
    Float.Model.pack (.zero (signOf negative)) = x.toModel := by
  rw [← unpack_of_decode_zero decoded, pack_unpack]

/-- A canonical size with a full mantissa survives packing. -/
theorem unpack_full {size : Magnitude} (canonical : size.Canonical) (full : 2 ^ 52 ≤ size.mantissa)
    (s : Sign) : UnpackedFloat.unpack .binary64
        (packComponents .binary64 s (.ofNat 11 (size.exponent + 1075).toNat) (.ofNat 52 size.mantissa)) =
      .finite s size.mantissa size.exponent canonical.positive := by
  have small := canonical.small
  have least := canonical.least
  have most := canonical.most
  have biased : (BitVec.ofNat 11 (size.exponent + 1075).toNat).toNat = (size.exponent + 1075).toNat := by
    rw [BitVec.toNat_ofNat]
    omega
  have fraction : (1#1 ++ BitVec.ofNat 52 size.mantissa).toNat = size.mantissa := by
    rw [BitVec.toNat_append, ← Nat.shiftLeft_add_eq_or_of_lt (BitVec.ofNat 52 size.mantissa).isLt,
      Nat.shiftLeft_eq, BitVec.toNat_ofNat, BitVec.toNat_ofNat]
    omega
  have ordinary : BitVec.ofNat 11 (size.exponent + 1075).toNat ≠ -1#11 := by
    rw [ne_eq, ← BitVec.toNat_inj, biased]
    change ¬ _ = 2047
    omega
  have above : BitVec.ofNat 11 (size.exponent + 1075).toNat ≠ 0#11 := by
    rw [ne_eq, ← BitVec.toNat_inj, biased]
    change ¬ _ = 0
    omega
  rw [UnpackedFloat.unpack]
  simp only [unpackExponent_packComponents, unpackMantissa_packComponents, unpackSign_packComponents,
    ordinary, above, if_false, Sign.ofBitVec_toBitVec]
  rw [UnpackedFloat.finite.injEq]
  refine ⟨rfl, fraction, ?_⟩
  rw [biased]
  change _ - 1075 = _
  omega

theorem unpack_short {size : Magnitude} (canonical : size.Canonical) (short : ¬ 2 ^ 52 ≤ size.mantissa)
    (s : Sign) : UnpackedFloat.unpack .binary64 (packComponents .binary64 s 0 (.ofNat 52 size.mantissa)) =
      .finite s size.mantissa size.exponent canonical.positive := by
  have fraction : (BitVec.ofNat 52 size.mantissa).toNat = size.mantissa := by
    rw [BitVec.toNat_ofNat]
    omega
  have nonzero : BitVec.ofNat 52 size.mantissa ≠ 0#52 := by
    rw [ne_eq, ← BitVec.toNat_inj, fraction]
    exact canonical.positive.ne'
  have ordinary : (0 : BitVec 11) ≠ -1#11 := by decide
  have exponent : size.exponent = -1074 := canonical.full.resolve_right short
  rw [UnpackedFloat.unpack]
  simp only [unpackExponent_packComponents, unpackMantissa_packComponents, unpackSign_packComponents,
    ordinary, nonzero, if_false, dif_neg, not_false_eq_true, Sign.ofBitVec_toBitVec]
  rw [if_pos (show (0 : BitVec 11) = 0#11 from rfl), UnpackedFloat.finite.injEq]
  exact ⟨rfl, fraction, exponent.symm⟩

/-- The parts of a float that is put together are the parts it is put together from. -/
theorem unpack_pack {s : Sign} {size : Magnitude} (canonical : size.Canonical) :
    (Float.Model.pack (.finite s size.mantissa size.exponent canonical.positive)).unpack =
      .finite s size.mantissa size.exponent canonical.positive := by
  change UnpackedFloat.unpack .binary64 (UnpackedFloat.pack .binary64 _) = _
  rw [pack_finite canonical]
  split
  case isTrue full => exact unpack_full canonical full s
  case isFalse short => exact unpack_short canonical short s

end CycleCost.Decimal
