/-
Module: CycleCost.Regression.Line
Purpose: Ordinary least squares for `time = slope * work + intercept` by centred sums. The slope is the cost
  of one unit of work; the intercept takes up launching and every other fixed cost.
Main exports: Fit, Regression.validate, Regression.determination, Regression.closedForm
-/
import CycleCost.Fault
import CycleCost.Regression.Series

namespace CycleCost

/-- A fitted line. -/
structure Fit (α : Type) where
  /-- Time per unit of work. -/
  slope : α
  /-- The fixed part of the time. -/
  intercept : α
  /-- The share of the variation of the times that the line explains; zero when they do not vary. -/
  rSquared : α
  points : Nat

namespace Regression

variable {α : Type} [Scalar α]

/-- The fewest different amounts of work that determine a line. -/
def minimumDistinct : Nat := 2

/-- The number of numerically different values; the two zeros count as one. -/
def distinctCount (xs : List α) : Nat :=
  (dropRepeats Scalar.eq (xs.mergeSort Scalar.totalLe)).length

/-- The first value that is not finite, as a failure of the named quantity. -/
def checkFinite (what : String) (values : List α) : Result Unit :=
  match values.find? (fun v => !Scalar.finite v) with
  | some v => .error (.badMetric what (Scalar.shown v))
  | none => .ok ()

/-- Points determine a line when each abscissa has an ordinate, all numbers are finite and two abscissas
    differ. -/
def validate (x y : List α) : Result Unit := do
  if x.length ≠ y.length then
    throw (.unsolvable s!"length mismatch: {x.length} x vs {y.length} y")
  checkFinite "work units" x
  checkFinite "time" y
  let distinct := distinctCount x
  if distinct < minimumDistinct then throw (.tooFewPoints distinct minimumDistinct)

/-- Whether all values equal the first. -/
def constant : List α → Bool
  | [] => true
  | first :: rest => (first :: rest).all (Scalar.eq · first)

/-- `1 - residual / total` within zero and one; zero when there is no variation to explain. -/
def determination (y : List α) (residual total : α) : α :=
  if constant y || Scalar.eq total Scalar.zero then Scalar.zero
  else Scalar.clamp Scalar.zero Scalar.one (Scalar.one - residual / total)

/-- Sums of products of the distances from the means. -/
structure CentredSums (α : Type) where
  xx : α
  xy : α
  yy : α

def centredSums (meanX meanY : α) (points : List (α × α)) : CentredSums α :=
  points.foldl
    (fun s (x, y) =>
      let dx := x - meanX
      let dy := y - meanY
      ⟨s.xx + dx * dx, s.xy + dx * dy, s.yy + dy * dy⟩)
    ⟨Scalar.zero, Scalar.zero, Scalar.zero⟩

/-- The sum of the squared distances of the points from a line. -/
def squaredResiduals (slope intercept : α) (points : List (α × α)) : α :=
  Scalar.sum (points.map fun (x, y) => Scalar.square (y - (slope * x + intercept)))

/-- The least-squares line by centred sums. -/
def closedForm (x y : List α) : Result (Fit α) := do
  validate x y
  let meanX := Scalar.mean x
  let meanY := Scalar.mean y
  let points := x.zip y
  let sums := centredSums meanX meanY points
  let slope := sums.xy / sums.xx
  let intercept := meanY - slope * meanX
  return {
    slope
    intercept
    rSquared := determination y (squaredResiduals slope intercept points) sums.yy
    points := x.length }

end Regression

end CycleCost
