/-
Module: CycleCost.Document.Json.Number
Purpose: The floats of the numbers in a JSON text. The digits that fit in 64 bits are taken as a whole number,
  which is then scaled by a power of ten. This takes few steps, but the float that it finds is not always the
  nearest one.
Main exports: packed, scaled, approximate
-/
import CycleCost.Decimal.Numeral

namespace CycleCost.Document.Json

open Decimal (Numeral)

/-- Digits put behind a number until it would no longer fit in 64 bits, and the digits that are left. -/
def packed (n : Nat) : List Char → Nat × List Char
  | [] => (n, [])
  | c :: rest =>
    let longer := n * 10 + (c.toNat - '0'.toNat)
    if longer < UInt64.size then packed longer rest else (n, c :: rest)

/-- The greatest power of ten among the floats is 10^308. -/
def greatestPower : Nat := 308

def power (n : Nat) : Float := Float.ofScientific 1 false n

/-- The float over a power of ten. Beyond the greatest power it takes several divisions, each with its own
    rounding. -/
def lowered (x : Float) (n : Nat) : Float :=
  if n ≤ greatestPower then x / power n
  else if x == 0 then x
  else lowered (x / power greatestPower) (n - greatestPower)
termination_by n
decreasing_by simp only [greatestPower] at *; omega

/-- The float times a power of ten. -/
def scaled (x : Float) : Int → Float
  | .ofNat n => if n ≤ greatestPower then x * power n else if x == 0 then x else 1.0 / 0.0
  | .negSucc n => lowered x (n + 1)

/-- The float of a numeral. A digit before the point that does not fit is counted, one behind it is dropped. -/
def approximate (n : Numeral) : Float :=
  let (whole, counted) := packed 0 n.whole
  let (digits, dropped) := packed whole n.fraction
  let places : Int := n.fraction.length - dropped.length
  let size := scaled (Float.ofNat digits) (counted.length - places + n.exponent.getD 0)
  if n.negative then -size else size

end CycleCost.Document.Json
