/-
Module: CycleCost.Proofs.Arithmetic.Binary64
Purpose: What it takes to compute as binary64 does. A value is its bits, ordered in total by them, and each
  operation gives the number that it gives for floats. Which of the values that are no number an operation
  gives is left open, as its payload is to hardware. The floats are such a type with one value that is no
  number, the patterns of 64 bits are one with all of them.
Main exports: rankOfBits, Binary64, Binary64.totalLe_trans, Binary64.totalLe_total, Binary64.totalLe_antisymm,
  BitPattern
-/
import CycleCost.Proofs.Decimal.Binary
import CycleCost.Scalar

namespace CycleCost

/-- The place of a bit pattern in the total order: patterns with a sign run backwards below zero. -/
def rankOfBits (bits : UInt64) : Int :=
  if bits.toNat < Nat.pow 2 63 then bits.toNat else (Nat.pow 2 63 : Int) - 1 - bits.toNat

theorem rankOfBits_injective : Function.Injective rankOfBits := by
  intro a b same
  apply UInt64.toNat_inj.1
  simp only [rankOfBits, Nat.pow_eq] at same
  split at same <;> split at same <;> omega

/-- Values that are told apart and ordered by their bits, with the arithmetic of the floats. -/
class Binary64 (α : Type) [Scalar α] where
  bits : α → UInt64
  bits_injective : Function.Injective bits
  /-- The float of the same bits; all values that are no number have the same. -/
  number : α → Float
  number_eq (x : α) : number x = Float.ofBits (bits x)
  number_add (x y : α) : number (x + y) = number x + number y
  number_sub (x y : α) : number (x - y) = number x - number y
  number_mul (x y : α) : number (x * y) = number x * number y
  number_div (x y : α) : number (x / y) = number x / number y
  number_ofNat (n : Nat) : number (Scalar.ofNat n) = Scalar.ofNat n
  number_sumStart : number Scalar.sumStart = Scalar.sumStart
  number_magnitude (x : α) : number (Scalar.magnitude x) = Scalar.magnitude (number x)
  number_root (x : α) : number (Scalar.root x) = Scalar.root (number x)
  wholePart_eq (x : α) : Scalar.wholePart x = Scalar.wholePart (number x)
  lt_eq (x y : α) : Scalar.lt x y = Scalar.lt (number x) (number y)
  eq_eq (x y : α) : Scalar.eq x y = Scalar.eq (number x) (number y)
  finite_eq (x : α) : Scalar.finite x = Scalar.finite (number x)
  totalLe_eq (x y : α) : Scalar.totalLe x y = decide (rankOfBits (bits x) ≤ rankOfBits (bits y))

namespace Binary64

variable {α : Type} [Scalar α] [Binary64 α] {x y z : α}

/-- The total order of the numbers is the order of the ranks of their bit patterns. -/
theorem totalLe_iff : Scalar.totalLe x y = true ↔ rankOfBits (bits x) ≤ rankOfBits (bits y) := by
  rw [totalLe_eq, decide_eq_true_eq]

/-- The total order is transitive, also through values that are no numbers. -/
theorem totalLe_trans (first : Scalar.totalLe x y = true) (second : Scalar.totalLe y z = true) :
    Scalar.totalLe x z = true :=
  totalLe_iff.2 ((totalLe_iff.1 first).trans (totalLe_iff.1 second))

theorem totalLe_total (x y : α) : (Scalar.totalLe x y || Scalar.totalLe y x) = true := by
  rw [Bool.or_eq_true, totalLe_iff, totalLe_iff]
  exact le_total _ _

/-- The total order tells all values apart, signed zeros and values that are no number as well. -/
theorem totalLe_antisymm (first : Scalar.totalLe x y = true) (second : Scalar.totalLe y x = true) : x = y :=
  bits_injective (rankOfBits_injective (le_antisymm (totalLe_iff.1 first) (totalLe_iff.1 second)))

@[simp] theorem number_zero : number (Scalar.zero : α) = Scalar.zero := number_ofNat 0

@[simp] theorem number_one : number (Scalar.one : α) = Scalar.one := number_ofNat 1

theorem number_clamp (lo hi x : α) :
    number (Scalar.clamp lo hi x) = Scalar.clamp (number lo) (number hi) (number x) := by
  rw [Scalar.clamp, Scalar.clamp, lt_eq x lo, lt_eq hi x, apply_ite number, apply_ite number]

end Binary64

/-! ### Floats -/

instance : Binary64 Float where
  bits := Float.toBits
  bits_injective _ _ := Float.toBits_inj.1
  number x := x
  number_eq x := (Float.ofBits_toBits x).symm
  number_add _ _ := rfl
  number_sub _ _ := rfl
  number_mul _ _ := rfl
  number_div _ _ := rfl
  number_ofNat _ := rfl
  number_sumStart := rfl
  number_magnitude _ := rfl
  number_root _ := rfl
  wholePart_eq _ := rfl
  lt_eq _ _ := rfl
  eq_eq _ _ := rfl
  finite_eq _ := rfl
  totalLe_eq _ _ := rfl

/-! ### Bit patterns -/

/-- A pattern of 64 bits. Other than among floats, every payload makes another value. -/
structure BitPattern where
  bits : UInt64

namespace BitPattern

/-- The float of a pattern. -/
def number (w : BitPattern) : Float := Float.ofBits w.bits

/-- The pattern of a float. -/
def ofNumber (x : Float) : BitPattern := ⟨x.toBits⟩

theorem number_ofNumber (x : Float) : (ofNumber x).number = x := Float.ofBits_toBits x

/-- Patterns compute by way of their floats. -/
instance : Scalar BitPattern where
  add a b := ofNumber (a.number + b.number)
  sub a b := ofNumber (a.number - b.number)
  mul a b := ofNumber (a.number * b.number)
  div a b := ofNumber (a.number / b.number)
  ofNat n := ofNumber (Scalar.ofNat n)
  sumStart := ofNumber Scalar.sumStart
  magnitude a := ofNumber (Scalar.magnitude a.number)
  root a := ofNumber (Scalar.root a.number)
  wholePart a := Scalar.wholePart a.number
  lt a b := Scalar.lt a.number b.number
  eq a b := Scalar.eq a.number b.number
  finite a := Scalar.finite a.number
  totalLe a b := rankOfBits a.bits ≤ rankOfBits b.bits
  shown a := a.number

instance : Binary64 BitPattern where
  bits := BitPattern.bits
  bits_injective := fun ⟨_⟩ ⟨_⟩ same => congrArg BitPattern.mk same
  number := number
  number_eq _ := rfl
  number_add _ _ := number_ofNumber _
  number_sub _ _ := number_ofNumber _
  number_mul _ _ := number_ofNumber _
  number_div _ _ := number_ofNumber _
  number_ofNat _ := number_ofNumber _
  number_sumStart := number_ofNumber _
  number_magnitude _ := number_ofNumber _
  number_root _ := number_ofNumber _
  wholePart_eq _ := rfl
  lt_eq _ _ := rfl
  eq_eq _ _ := rfl
  finite_eq _ := rfl
  totalLe_eq _ _ := rfl

end BitPattern

end CycleCost
