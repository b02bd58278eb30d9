/-
Module: CycleCost.Scalar
Purpose: The arithmetic in which times, costs and errors are computed. Every formula of the library is
  written once over this interface; the program runs it at binary64 floats, and an exact instance gives
  the same formula its textbook meaning. The order of additions and the value a sum starts from are part
  of the definitions, because a float result depends on them.
Main exports: Scalar, Scalar.sum, Scalar.mean, Scalar.square, Scalar.clamp, totalRank
-/

namespace CycleCost

/-- Numbers with the operations that the formulas of a calibration use. -/
class Scalar (α : Type) extends Add α, Sub α, Mul α, Div α where
  /-- The number that a count denotes, rounded to the nearest one where it has to be. -/
  ofNat : Nat → α
  /-- Where a left-to-right sum starts: adding a number to it gives that number, zero's sign included. -/
  sumStart : α
  /-- The distance from zero. -/
  magnitude : α → α
  /-- The square root by which a variance becomes a deviation. -/
  root : α → α
  /-- The whole part of a number that is not negative. -/
  wholePart : α → Nat
  /-- Numeric `<`, false when an operand is no number. -/
  lt : α → α → Bool
  /-- Numeric equality, under which the two zeros are equal and no non-number equals anything. -/
  eq : α → α → Bool
  /-- Whether the value is a number of finite size. -/
  finite : α → Bool
  /-- A total order that agrees with `lt` on numbers and also ranks signed zeros and non-numbers. -/
  totalLe : α → α → Bool
  /-- The value as it is shown in a message. -/
  shown : α → Float

namespace Scalar

variable {α : Type} [Scalar α]

/-- Zero, the count of nothing. -/
def zero : α := ofNat 0

/-- One, the count of a single thing. -/
def one : α := ofNat 1

/-- Numeric `≤`, false when an operand is no number. -/
def le (x y : α) : Bool := lt x y || eq x y

/-- The product of a number with itself. -/
def square (x : α) : α := x * x

/-- The left-to-right sum. -/
def sum (xs : List α) : α := xs.foldl (· + ·) sumStart

/-- The left-to-right sum divided by the number of terms. -/
def mean (xs : List α) : α := sum xs / ofNat xs.length

/-- The nearest number of the interval from `lo` to `hi`; a non-number stays as it is. -/
def clamp (lo hi x : α) : α := if lt x lo then lo else if lt hi x then hi else x

/-- The larger of two numbers; a non-number yields to the other operand. -/
def larger (x y : α) : α := if lt x y then y else if eq y y && !eq x x then y else x

/-- The smaller of two numbers; a non-number yields to the other operand. -/
def smaller (x y : α) : α := if lt y x then y else if eq y y && !eq x x then y else x

/-- A number is a usable rate or cost when it is finite and above zero. -/
def finitePositive (x : α) : Bool := finite x && lt zero x

end Scalar

/-- The place of a float in the total order: the bit pattern read as a number, with the patterns that
    carry a sign placed below zero and running backwards. -/
def totalRank (x : Float) : Int :=
  let bits := x.toBits.toNat
  if bits < Nat.pow 2 63 then bits else (Nat.pow 2 63 : Int) - 1 - bits

/-- The binary64 floats. A sum starts from `-0.0`, the one start that keeps a sum of negative zeros
    negative. -/
instance : Scalar Float where
  ofNat := Float.ofNat
  sumStart := -0.0
  magnitude := Float.abs
  root := Float.sqrt
  wholePart x := x.toUInt64.toNat
  lt x y := x < y
  eq x y := x == y
  finite := Float.isFinite
  totalLe x y := totalRank x ≤ totalRank y
  shown x := x

end CycleCost
