/-
Module: CycleCost.Duration
Purpose: Lengths of time in whole nanoseconds, and how a message spells them: in the largest unit that
  gives at least one, with up to nine decimals and no zeros at the end.
Main exports: Duration, Duration.text, Duration.milliseconds
-/
import CycleCost.Scalar

namespace CycleCost

/-- A length of time in whole nanoseconds. -/
structure Duration where
  nanoseconds : Nat
  deriving DecidableEq, Repr

namespace Duration

/-- A length of time in whole seconds. -/
def ofSeconds (n : Nat) : Duration := ⟨n * 1000000000⟩

/-- A length of time in whole milliseconds. -/
def ofMilliseconds (n : Nat) : Duration := ⟨n * 1000000⟩

/-- The decimal digits of `n`, filled up with zeros in front to `width` places. -/
def paddedDigits (width n : Nat) : List Char :=
  let digits := (toString n).toList
  List.replicate (width - digits.length) '0' ++ digits

/-- A quantity of `units` and `rest` parts of `10 ^ places` in a unit: the decimals end at the last one
    that is not zero, and a whole number has no point. -/
def decimalText (units rest places : Nat) (unitName : String) : String :=
  let decimals := ((paddedDigits places rest).reverse.dropWhile (· == '0')).reverse
  let point := if decimals.isEmpty then "" else "."
  toString units ++ point ++ String.ofList decimals ++ unitName

/-- The text of a length of time in a message. -/
def text (d : Duration) : String :=
  let n := d.nanoseconds
  if 1000000000 ≤ n then decimalText (n / 1000000000) (n % 1000000000) 9 "s"
  else if 1000000 ≤ n then decimalText (n / 1000000) (n % 1000000) 6 "ms"
  else if 1000 ≤ n then decimalText (n / 1000) (n % 1000) 3 "µs"
  else decimalText n 0 0 "ns"

/-- A stopwatch reading in milliseconds: whole seconds and the rest are converted apart and then added,
    so that a long time does not swallow the nanoseconds before the conversion. -/
def milliseconds {α : Type} [Scalar α] (d : Duration) : α :=
  (Scalar.ofNat (d.nanoseconds / 1000000000)
    + Scalar.ofNat (d.nanoseconds % 1000000000) / Scalar.ofNat 1000000000) * Scalar.ofNat 1000

end Duration

end CycleCost
