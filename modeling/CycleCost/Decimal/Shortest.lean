/-
Module: CycleCost.Decimal.Shortest
Purpose: The fewest decimal digits that read back as a given float, and of those the nearest to it. For one
  digit, two digits and so on the two neighbours of the value on that decimal grid are tried; if any point
  of a grid reads back, one of the two neighbours does, so the first hit is the shortest text.
Main exports: Digits, Tie, shortest
-/
import CycleCost.Decimal.Binary

namespace CycleCost.Decimal

/-- A positive decimal number `d.ddd * 10 ^ place`, its digits without zeros at the end. -/
structure Digits where
  digits : List Char
  place : Int
  deriving DecidableEq, Repr

/-- Where a value exactly between two candidates goes. -/
inductive Tie where
  | toEven
  | up
  deriving DecidableEq, Repr

namespace Digits

/-- The digits of `n`, which is counted in units of `10 ^ unit`. -/
def ofUnits (n : Nat) (unit : Int) : Digits :=
  let text := (toString n).toList
  ⟨(text.reverse.dropWhile (· == '0')).reverse, unit + text.length - 1⟩

end Digits

/-- The better of the two neighbours of the value on the grid of step `10 ^ unit`, when one of them lies in
    the interval that reads back. -/
def candidate (tie : Tie) (around : Magnitude.Nearby) (unit : Int) : Option Nat :=
  let low := around.low.scale (-unit)
  let value := around.value.scale (-unit)
  let high := around.high.scale (-unit)
  let den := value.den
  let below := value.floor
  let above := below + 1
  let belowReads := if around.closed then low.num ≤ below * den else low.num < below * den
  let aboveReads := if around.closed then above * den ≤ high.num else above * den < high.num
  let gapBelow := value.num - below * den
  let gapAbove := above * den - value.num
  if belowReads && aboveReads then
    if gapBelow < gapAbove then some below
    else if gapAbove < gapBelow then some above
    else match tie with
      | .toEven => if below % 2 = 0 then some below else some above
      | .up => some above
  else if belowReads then some below
  else if aboveReads then some above
  else none

/-- Seventeen significant digits always read back, so the search for fewer ends there. -/
def longest : Nat := 17

/-- The shortest decimal that reads back as the float of this size. -/
def shortest (tie : Tie) (size : Magnitude) : Digits :=
  let around := size.nearby
  let place := around.value.leadingPlace
  let attempt (count : Nat) : Option Digits :=
    let unit := place - (count : Int)
    (candidate tie around unit).map (Digits.ofUnits · unit)
  match (List.range longest).findSome? attempt with
  | some digits => digits
  | none =>
    let (digits, top) := around.value.significant longest
    Digits.ofUnits digits (top - longest + 1)

end CycleCost.Decimal
