/-
Module: CycleCost.Decimal.Numeral
Purpose: Decimal numerals as they stand in a text, and the numbers they denote: whole numbers exactly, others
  as the nearest float. A numeral far outside the range of floats is decided by its size alone, so that a
  huge exponent is never computed.
Main exports: Numeral, Numeral.toFloat, digitsValue, nearestFloat, parseUnsigned, parseFloatText
-/
import CycleCost.Decimal.Rounding

namespace CycleCost.Decimal

/-- The number that a list of decimal digits denotes. -/
def digitsValue (digits : List Char) : Nat :=
  digits.foldl (fun n c => n * 10 + (c.toNat - '0'.toNat)) 0

/-- The float nearest to `digits * 10 ^ exponent`. Above 10^310 this is infinity and below 10^-330 zero. -/
def nearestFloat (negative : Bool) (digits : Nat) (exponent : Int) : Float :=
  let top : Int := digitCount digits + exponent
  let size : Float :=
    if digits = 0 then 0.0
    else if 310 < top then 1.0 / 0.0
    else if top < -330 then 0.0
    else if exponent < 0 then Float.ofScientific digits true exponent.natAbs
    else Float.ofScientific digits false exponent.natAbs
  if negative then -size else size

/-- A decimal numeral: sign, digits before and after the point, and the exponent if one is written. -/
structure Numeral where
  negative : Bool
  whole : List Char
  fraction : List Char
  exponent : Option Int
  deriving DecidableEq, Repr

namespace Numeral

/-- Whether the numeral has neither a fraction nor an exponent. -/
def isWhole (n : Numeral) : Bool := n.fraction.isEmpty && n.exponent.isNone

/-- The whole number before the point, with its sign. -/
def wholeValue (n : Numeral) : Int :=
  let size : Int := digitsValue n.whole
  if n.negative then -size else size

/-- The nearest float. -/
def toFloat (n : Numeral) : Float :=
  nearestFloat n.negative (digitsValue (n.whole ++ n.fraction))
    (n.exponent.getD 0 - n.fraction.length)

end Numeral

/-- A count written in decimal digits, with at most one plus sign in front, below 2^64. -/
def parseUnsigned (bound : Nat) (text : List Char) : Option Nat :=
  let digits := match text with
    | '+' :: rest => rest
    | _ => text
  if digits.isEmpty || !digits.all Char.isDigit then none
  else
    let n := digitsValue digits
    if n < bound then some n else none

/-- An exponent: an optional sign and at least one digit. -/
def parseExponent (text : List Char) : Option Int :=
  let (negative, digits) := match text with
    | '-' :: rest => (true, rest)
    | '+' :: rest => (false, rest)
    | _ => (false, text)
  if digits.isEmpty || !digits.all Char.isDigit then none
  else
    let n : Int := digitsValue digits
    some (if negative then -n else n)

/-- A float as it is typed: an optional sign, then digits with an optional point and exponent (digits may be
    missing on one side of the point), or the words for infinity and for no number in any case. -/
def parseFloatText (text : List Char) : Option Float :=
  let (negative, body) := match text with
    | '-' :: rest => (true, rest)
    | '+' :: rest => (false, rest)
    | _ => (false, text)
  let word := body.map Char.toLower
  if word = "inf".toList || word = "infinity".toList then
    some (if negative then -1.0 / 0.0 else 1.0 / 0.0)
  else if word = "nan".toList then some (0.0 / 0.0)
  else
    let whole := body.takeWhile Char.isDigit
    let afterWhole := body.dropWhile Char.isDigit
    let (fraction, rest) := match afterWhole with
      | '.' :: r => (r.takeWhile Char.isDigit, r.dropWhile Char.isDigit)
      | r => ([], r)
    if whole.isEmpty && fraction.isEmpty then none
    else match rest with
      | [] => some (Numeral.toFloat ⟨negative, whole, fraction, none⟩)
      | c :: r =>
        if c = 'e' || c = 'E' then
          (parseExponent r).map fun e => Numeral.toFloat ⟨negative, whole, fraction, some e⟩
        else none

end CycleCost.Decimal
