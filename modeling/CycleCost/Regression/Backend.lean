/-
Module: CycleCost.Regression.Backend
Purpose: The two ways to compute the least-squares line, chosen by name.
Main exports: Regression.Backend, Regression.Backend.fit, Regression.Backend.fitSeries
-/
import CycleCost.Regression.Rotation

namespace CycleCost.Regression

/-- A way to compute the least-squares line. -/
inductive Backend where
  | closedForm
  | linalg
  deriving DecidableEq, Repr

namespace Backend

def all : List Backend := [closedForm, linalg]

def name : Backend → String
  | closedForm => "closed-form"
  | linalg => "linalg"

variable {α : Type} [Scalar α]

/-- The line through points given by their coordinates. -/
def fit : Backend → List α → List α → Result (Fit α)
  | closedForm => Regression.closedForm
  | linalg => Regression.linalg

/-- The line through the observations of a series. -/
def fitSeries (b : Backend) (s : Series α) : Result (Fit α) := b.fit s.abscissas s.ordinates

end Backend

end CycleCost.Regression
