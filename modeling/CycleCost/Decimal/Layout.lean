/-
Module: CycleCost.Decimal.Layout
Purpose: The texts of floats. A document writes ordinary sizes in positional notation, always with a
  fraction, and the rest with a signed exponent; a message never uses an exponent and drops an empty
  fraction; a table rounds the exact value to fixed places, a half going to the even neighbour.
Main exports: Layout, Layout.document, Layout.message, Layout.inspection, Layout.text, fixedText,
  exponentText
-/
import CycleCost.Decimal.Shortest

namespace CycleCost.Decimal

/-- How a float is written with its shortest digits. -/
structure Layout where
  /-- The places of the leading digit that are written in positional notation; without bounds, all. -/
  positional : Option (Int × Int)
  /-- Whether a whole number in positional notation ends in `.0`. -/
  wholePoint : Bool
  /-- The sign in front of a positive exponent. -/
  exponentSign : String
  /-- Where an exact tie between two shortest candidates goes. -/
  tie : Tie

namespace Layout

/-- Numbers in documents: positional from 0.00001 to below 10^16. -/
def document : Layout := ⟨some (-5, 15), true, "+", .toEven⟩

/-- Numbers in messages: always positional, whole numbers without a point. -/
def message : Layout := ⟨none, false, "", .up⟩

/-- Numbers in the inspected form of an error: positional from 0.0001 to below 10^16. -/
def inspection : Layout := ⟨some (-4, 15), true, "", .up⟩

end Layout

def zeros (n : Nat) : List Char := List.replicate n '0'

/-- Digits in positional notation: zeros fill the gap to the point on either side. -/
def positionalText (layout : Layout) (d : Digits) : List Char :=
  if d.place < 0 then "0.".toList ++ zeros (-d.place - 1).toNat ++ d.digits
  else
    let whole := d.place.toNat + 1
    if d.digits.length ≤ whole then
      d.digits ++ zeros (whole - d.digits.length) ++ (if layout.wholePoint then ".0".toList else [])
    else d.digits.take whole ++ '.' :: d.digits.drop whole

/-- Digits with an exponent: one digit before the point, no point when there is only one digit. -/
def scientificText (layout : Layout) (d : Digits) : List Char :=
  let fraction := match d.digits.drop 1 with
    | [] => []
    | rest => '.' :: rest
  let sign := if d.place < 0 then "-" else layout.exponentSign
  d.digits.take 1 ++ fraction ++ 'e' :: (sign ++ toString d.place.natAbs).toList

def signText (negative : Bool) : List Char := if negative then ['-'] else []

def Layout.text (layout : Layout) (x : Float) : String :=
  match decode x with
  | .notNumber => "NaN"
  | .infinite negative => String.ofList (signText negative ++ "inf".toList)
  | .zero negative =>
    String.ofList (signText negative ++ '0' :: (if layout.wholePoint then ".0".toList else []))
  | .finite negative size =>
    let d := shortest layout.tie size
    let isPositional := match layout.positional with
      | none => true
      | some (lowest, highest) => lowest ≤ d.place && d.place ≤ highest
    String.ofList (signText negative ++
      if isPositional then positionalText layout d else scientificText layout d)

/-- The digits of `n` with a point before the last `places` of them. -/
def pointedDigits (places n : Nat) : List Char :=
  let digits := (toString n).toList
  let filled := zeros (places + 1 - digits.length) ++ digits
  let whole := filled.length - places
  filled.take whole ++ (if places = 0 then [] else '.' :: filled.drop whole)

/-- A float with a fixed number of decimal places. -/
def fixedText (places : Nat) (x : Float) : String :=
  match decode x with
  | .notNumber => "NaN"
  | .infinite negative => String.ofList (signText negative ++ "inf".toList)
  | .zero negative => String.ofList (signText negative ++ pointedDigits places 0)
  | .finite negative size =>
    String.ofList (signText negative ++
      pointedDigits places (size.quotient.scale places).roundHalfEven)

/-- A float as one digit, `places` decimals and an exponent. -/
def exponentText (places : Nat) (x : Float) : String :=
  let build (negative : Bool) (digits : Nat) (place : Int) : String :=
    String.ofList (signText negative ++ pointedDigits places digits ++ 'e' :: (toString place).toList)
  match decode x with
  | .notNumber => "NaN"
  | .infinite negative => String.ofList (signText negative ++ "inf".toList)
  | .zero negative => build negative 0 0
  | .finite negative size =>
    let (digits, place) := size.quotient.significant (places + 1)
    build negative digits place

end CycleCost.Decimal
