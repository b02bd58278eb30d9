/-
Module: CycleCost.Proofs.Arithmetic.Rank
Purpose: Three ways to compare finite floats beside each other. Read as a number, the bits below the sign count
  the sizes upwards from zero, so the total order ranks floats as the numbers they are and tells only the two
  zeros apart, which numeric equality takes for one.
Main exports: totalRank_eq, totalRank_lt, beq_iff_valueOf_eq, Binary64.value, Binary64.value_le_of_totalLe,
  Binary64.eq_iff_value_eq
-/
import CycleCost.Proofs.Arithmetic.Binary64
import CycleCost.Proofs.Arithmetic.Float
import CycleCost.Proofs.Arithmetic.Value

namespace CycleCost

open Decimal Float.Model Float.Model.UnpackedFloat

/-! ### The places of sizes -/

namespace Decimal.Magnitude

/-- How many sizes there are up to this one: all mantissas of each lower exponent, and the lower mantissas. -/
def place (size : Magnitude) : Int := (size.exponent + 1074) * 2 ^ 52 + size.mantissa

variable {a b : Magnitude}

theorem Canonical.place_pos (canonical : a.Canonical) : 0 < a.place := by
  have least := canonical.least
  have positive := canonical.positive
  rw [place]
  omega

/-- Of two canonical sizes the one with the larger exponent has the higher place. -/
theorem Canonical.place_lt_of_exponent_lt (first : a.Canonical) (second : b.Canonical)
    (less : a.exponent < b.exponent) : a.place < b.place := by
  have least := first.least
  have small := first.small
  have full : 2 ^ 52 ≤ b.mantissa := second.full.resolve_left (by omega)
  rw [place, place]
  omega

/-- Sizes stand in the order of their values. -/
theorem Canonical.place_lt_iff (first : a.Canonical) (second : b.Canonical) :
    a.place < b.place ↔ a.value < b.value := by
  rcases lt_trichotomy a.exponent b.exponent with less | same | more
  · exact iff_of_true (first.place_lt_of_exponent_lt second less) (first.value_lt_of_exponent_lt second less)
  · rw [place, place, value, value, same, add_lt_add_iff_left, mul_lt_mul_iff_left₀ (two_zpow_pos _),
      Nat.cast_lt, Nat.cast_lt]
  · exact iff_of_false (second.place_lt_of_exponent_lt first more).not_gt
      (second.value_lt_of_exponent_lt first more).not_gt

end Decimal.Magnitude

/-- Zero and the sizes with their places. -/
inductive Placed : Int → ℚ → Prop where
  | zero : Placed 0 0
  | size {size : Magnitude} (canonical : size.Canonical) : Placed size.place size.value

namespace Placed

variable {p q : Int} {u v : ℚ}

theorem place_nonneg (placed : Placed p u) : 0 ≤ p := by
  cases placed with
  | zero => exact le_rfl
  | size canonical => exact canonical.place_pos.le

theorem value_nonneg (placed : Placed p u) : 0 ≤ u := by
  cases placed with
  | zero => exact le_rfl
  | size canonical => exact canonical.value_pos.le

theorem lt_iff (first : Placed p u) (second : Placed q v) : p < q ↔ u < v := by
  cases first with
  | zero =>
    cases second with
    | zero => simp
    | size canonical => exact iff_of_true canonical.place_pos canonical.value_pos
  | size canonical =>
    cases second with
    | zero => exact iff_of_false canonical.place_pos.not_gt canonical.value_pos.not_gt
    | size canonical' => exact canonical.place_lt_iff canonical'

end Placed

/-! ### Ranks -/

/-- The place of a float in the total order, by its sign and its size: negative sizes run backwards below zero. -/
def signedRank (negative : Bool) (place : Int) : Int := if negative then -1 - place else place

/-- The rank of a float is its bit pattern without the sign, running backwards below zero. -/
theorem totalRank_eq (x : Float) :
    totalRank x = signedRank (negativeOf x) (biasedOf x * 2 ^ 52 + fractionOf x : Nat) := by
  have bound : (bitsOf x).toNat < 2 ^ 64 := (bitsOf x).isLt
  have unfolded : totalRank x =
      if (bitsOf x).toNat < Nat.pow 2 63 then ((bitsOf x).toNat : Int)
      else (Nat.pow 2 63 : Int) - 1 - (bitsOf x).toNat := rfl
  rw [unfolded, signedRank, negativeOf, biasedOf, fractionOf]
  generalize (bitsOf x).toNat = n at bound ⊢
  by_cases negative : 2 ^ 63 ≤ n
  · rw [if_neg (show ¬ n < Nat.pow 2 63 from not_lt.2 negative), decide_eq_true negative, if_pos rfl]
    change (2 : Int) ^ 63 - 1 - n = _
    omega
  · rw [if_pos (show n < Nat.pow 2 63 from not_le.1 negative), decide_eq_false negative,
      if_neg Bool.false_ne_true]
    omega

variable {x y : Float}

/-- A finite float is a sign with a size or zero, and its rank is the signed place of it. -/
theorem exists_placed (finite : x.isFinite) : ∃ p v, Placed p v ∧
    totalRank x = signedRank (negativeOf x) p ∧ valueOf x = signed (signOf (negativeOf x)) v := by
  have parts := decode_eq x
  have rank := totalRank_eq x
  rcases (isFinite_iff x).1 finite with ⟨negative, decoded⟩ | ⟨negative, size, decoded⟩
  · have value := unpack_of_decode_zero decoded
    rw [decoded] at parts
    split_ifs at parts with top infinite least zero
    cases parts
    refine ⟨0, 0, .zero, by simpa [least, zero] using rank, ?_⟩
    rw [valueOf, value]
    cases negativeOf x <;> rfl
  · have value := unpack_of_decode decoded
    have canonical := decode_canonical decoded
    refine ⟨size.place, size.value, .size canonical, ?_⟩
    rw [valueOf, value, amount_finite, rank]
    rw [decoded] at parts
    split_ifs at parts with top infinite least zero
    · cases parts
      refine ⟨?_, rfl⟩
      simp [Magnitude.place, least]
    · cases parts
      refine ⟨?_, rfl⟩
      rw [Magnitude.place]
      congr 1
      push_cast
      ring

/-- Signed places rank as the signed sizes at them. -/
theorem Placed.signedRank_lt {p q : Int} {u v : ℚ} (first : Placed p u) (second : Placed q v)
    {negative negative' : Bool} (less : signed (signOf negative) u < signed (signOf negative') v) :
    signedRank negative p < signedRank negative' q := by
  have low := first.place_nonneg
  have low' := second.place_nonneg
  have nonneg := first.value_nonneg
  have nonneg' := second.value_nonneg
  cases negative <;> cases negative'
  case false.false => exact (first.lt_iff second).2 less
  case false.true =>
    change u < -v at less
    linarith
  case true.false =>
    change -1 - p < q
    omega
  case true.true =>
    change -u < -v at less
    have reversed := (second.lt_iff first).2 (neg_lt_neg_iff.1 less)
    change -1 - p < -1 - q
    omega

/-- The total order ranks finite floats as the numbers they are. -/
theorem totalRank_lt (first : x.isFinite) (second : y.isFinite) (less : valueOf x < valueOf y) :
    totalRank x < totalRank y := by
  obtain ⟨p, u, placed, rank, value⟩ := exists_placed first
  obtain ⟨q, v, placed', rank', value'⟩ := exists_placed second
  rw [value, value'] at less
  rw [rank, rank']
  exact placed.signedRank_lt placed' less

/-- Finite floats are equal when they are the same number. -/
theorem beq_iff_valueOf_eq (first : x.isFinite) (second : y.isFinite) :
    (x == y) = true ↔ valueOf x = valueOf y := by
  have unfolded : (x == y) = (UnpackedFloat.compare x.toModel.unpack y.toModel.unpack == some .eq) := rfl
  rw [unfolded, compare_unpack first second, beq_iff_eq, Option.some_inj, compare_eq_iff_eq]

/-! ### Every binary64 -/

/-- A pattern that is read as a number is the pattern of that number. -/
theorem toBits_ofBits {bits : UInt64} (finite : (Float.ofBits bits).isFinite) :
    (Float.ofBits bits).toBits = bits := by
  obtain ⟨b⟩ := bits
  have read : (UnpackedFloat.unpack .binary64 b).isFinite := isFinite_of_pack finite
  have valid : Format.binary64.Valid b := by
    refine ⟨fun top nonzero => ?_⟩
    rw [UnpackedFloat.unpack] at read
    simp only [top, if_true, if_neg nonzero] at read
    cases read
  exact congrArg UInt64.ofBitVec (pack_unpack_of_valid valid)

namespace Binary64

variable {α : Type} [Scalar α] [Binary64 α] {x y : α}

/-- The number that a finite value is. -/
def value (x : α) : ℚ := valueOf (number x)

theorem finite_iff : Scalar.finite x = true ↔ (number x).isFinite = true := by
  rw [finite_eq]
  rfl

/-- On finite values the rank of the bit pattern is the rank of the number. -/
theorem rankOfBits_bits (finite : Scalar.finite x = true) : rankOfBits (bits x) = totalRank (number x) := by
  have same : (number x).toBits = bits x := by
    rw [number_eq]
    apply toBits_ofBits
    rw [← number_eq]
    exact finite_iff.1 finite
  rw [← same]
  rfl

/-- What the total order puts first is no larger. -/
theorem value_le_of_totalLe (first : Scalar.finite x = true) (second : Scalar.finite y = true)
    (order : Scalar.totalLe x y = true) : value x ≤ value y := by
  rw [totalLe_iff, rankOfBits_bits first, rankOfBits_bits second] at order
  by_contra less
  exact order.not_gt (totalRank_lt (finite_iff.1 second) (finite_iff.1 first) (not_le.1 less))

theorem eq_iff_value_eq (first : Scalar.finite x = true) (second : Scalar.finite y = true) :
    Scalar.eq x y = true ↔ value x = value y := by
  rw [eq_eq]
  exact beq_iff_valueOf_eq (finite_iff.1 first) (finite_iff.1 second)

end Binary64

end CycleCost
