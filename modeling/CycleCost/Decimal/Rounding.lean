/-
Module: CycleCost.Decimal.Rounding
Purpose: Quotients of naturals on the decimal grid: how many digits a number has, the place of a quotient's
  leading digit, scaling by powers of ten, and rounding to the nearest whole number with a half going to
  the even neighbour. Everything is exact, so every decimal text of the library is exact as well.
Main exports: digitCount, leadingPlace, Quotient.scale, Quotient.roundHalfEven, significant
-/

namespace CycleCost.Decimal

/-- The number of decimal digits of `n`; zero has none. -/
def digitCount (n : Nat) : Nat :=
  if n = 0 then 0 else digitCount (n / 10) + 1
termination_by n
decreasing_by omega

/-- A positive quotient of naturals. -/
structure Quotient where
  num : Nat
  den : Nat
  deriving DecidableEq, Repr

namespace Quotient

/-- The quotient times `10 ^ power`. -/
def scale (q : Quotient) (power : Int) : Quotient :=
  match power with
  | .ofNat p => ⟨q.num * Nat.pow 10 p, q.den⟩
  | .negSucc p => ⟨q.num, q.den * Nat.pow 10 (p + 1)⟩

/-- The whole part. -/
def floor (q : Quotient) : Nat := q.num / q.den

/-- The nearest whole number; a half goes to the even neighbour. -/
def roundHalfEven (q : Quotient) : Nat :=
  let whole := q.num / q.den
  let rest := q.num % q.den
  if 2 * rest < q.den then whole
  else if q.den < 2 * rest then whole + 1
  else if whole % 2 = 0 then whole else whole + 1

/-- The `k` with `10 ^ k ≤ q < 10 ^ (k + 1)`. -/
def leadingPlace (q : Quotient) : Int :=
  if q.den ≤ q.num then (digitCount (q.num / q.den) : Int) - 1
  else -(digitCount ((q.den - 1) / q.num) : Int)

/-- The quotient rounded to `count` significant digits: the digits as one number, and the place of the
    first. Rounding up to the next power of ten moves the place and keeps the count. -/
def significant (count : Nat) (q : Quotient) : Nat × Int :=
  let place := q.leadingPlace
  let digits := (q.scale ((count : Int) - 1 - place)).roundHalfEven
  if digits = Nat.pow 10 count then (Nat.pow 10 (count - 1), place + 1) else (digits, place)

end Quotient

end CycleCost.Decimal
