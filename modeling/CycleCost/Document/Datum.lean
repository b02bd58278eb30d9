/-
Module: CycleCost.Document.Datum
Purpose: The values that a document holds, whatever the notation it is written in.
Main exports: Datum, Datum.ofNumeral, Parser
-/
import CycleCost.Decimal.Numeral

namespace CycleCost.Document

/-- A value of a document. -/
inductive Datum where
  | null
  | bool (value : Bool)
  | integer (value : Int)
  | real (value : Float)
  | text (value : String)
  | list (items : List Datum)
  /-- Named members in the order in which they are written. -/
  | table (members : List (String × Datum))
  /-- A value that is well formed but that no field can hold: a number beyond the range of floats, a text
      with half a surrogate pair, a date. It may stand wherever a value is not looked at. -/
  | unusable
  deriving Inhabited

namespace Datum

/-- A number: a whole one within 64 bits stays exact, and any other becomes the float that `float` has for it.
    The negative zero of a whole numeral is a float, because integers have none. -/
def ofNumeral (float : Decimal.Numeral → Float) (n : Decimal.Numeral) : Datum :=
  let whole := n.wholeValue
  let exact := n.isWhole && Int64.minValue.toInt ≤ whole && whole < UInt64.size && !(n.negative && whole = 0)
  if exact then integer whole
  else
    let x := float n
    if x.isFinite then real x else unusable

end Datum

/-- What finds the value of a text, if the text is well formed. -/
abbrev Parser := String → Option Datum

end CycleCost.Document
