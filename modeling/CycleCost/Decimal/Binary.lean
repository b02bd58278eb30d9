/-
Module: CycleCost.Decimal.Binary
Purpose: A binary64 float taken apart into its class, its exact value and the interval of reals that round
  to it. Everything is read off the bit pattern, so no float operation takes part.
Main exports: Decoded, decode, Magnitude.quotient, Magnitude.nearby
-/
import CycleCost.Decimal.Rounding

namespace CycleCost.Decimal

/-- The size of a finite float that is not zero: `mantissa * 2 ^ exponent`. In a `narrow` one the next
    smaller float is only half a step away, because it has the next smaller exponent. -/
structure Magnitude where
  mantissa : Nat
  exponent : Int
  narrow : Bool
  deriving DecidableEq, Repr

/-- What a bit pattern says. -/
inductive Decoded where
  | notNumber
  | infinite (negative : Bool)
  | zero (negative : Bool)
  | finite (negative : Bool) (size : Magnitude)
  deriving DecidableEq, Repr

/-- The sign, exponent and fraction fields of a float, put together. -/
def decode (x : Float) : Decoded :=
  let bits : Nat := x.toBits.toNat
  let negative : Bool := Nat.pow 2 63 ≤ bits
  let biased : Nat := bits / Nat.pow 2 52 % Nat.pow 2 11
  let fraction : Nat := bits % Nat.pow 2 52
  if biased = 2047 then
    if fraction = 0 then .infinite negative else .notNumber
  else if biased = 0 then
    if fraction = 0 then .zero negative else .finite negative ⟨fraction, -1074, false⟩
  else .finite negative ⟨fraction + Nat.pow 2 52, (biased : Int) - 1075, fraction = 0 && 1 < biased⟩

namespace Magnitude

/-- `n * 2 ^ power` as a quotient. -/
def shifted (n : Nat) (power : Int) : Quotient :=
  match power with
  | .ofNat p => ⟨n * Nat.pow 2 p, 1⟩
  | .negSucc p => ⟨n, Nat.pow 2 (p + 1)⟩

/-- The exact value. -/
def quotient (size : Magnitude) : Quotient := shifted size.mantissa size.exponent

/-- The reals that round to a float lie from half a step below it to half a step above, ends included when
    the mantissa is even. All three numbers share one denominator. -/
structure Nearby where
  low : Quotient
  value : Quotient
  high : Quotient
  closed : Bool

/-- The interval around a float, in quarters of its last place. -/
def nearby (size : Magnitude) : Nearby :=
  let quarters := 4 * size.mantissa
  let power := size.exponent - 2
  { low := shifted (quarters - if size.narrow then 1 else 2) power
    value := shifted quarters power
    high := shifted (quarters + 2) power
    closed := size.mantissa % 2 = 0 }

end Magnitude

end CycleCost.Decimal
