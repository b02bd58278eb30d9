/-
Module: CycleCost.Proofs.Regression.Delay
Purpose: Where a constant delay goes. Centred sums see only distances from the mean, so a line through times
  that are all `d` larger has the same slope and the same coefficient of determination, and an intercept that
  is `d` larger.
Main exports: Regression.centredLine, Regression.closedForm_eq, Regression.centredSums_eq_foldl_add,
  Regression.centredLine_map_add, Regression.closedForm_map_add
-/
import Mathlib
import CycleCost.Proofs.Arithmetic.Exact
import CycleCost.Regression.Backend

namespace CycleCost

/-- A line through times that are all `d` larger. -/
def Fit.delayed {K : Type} [Add K] (d : K) (f : Fit K) : Fit K := { f with intercept := f.intercept + d }

namespace Regression

section

variable {α : Type} [Scalar α]

/-- The slope of the line by centred sums. -/
def centredSlope (x y : List α) : α :=
  let sums := centredSums (Scalar.mean x) (Scalar.mean y) (x.zip y)
  sums.xy / sums.xx

/-- The line by centred sums, of points that determine one. -/
def centredLine (x y : List α) : Fit α where
  slope := centredSlope x y
  intercept := Scalar.mean y - centredSlope x y * Scalar.mean x
  rSquared := determination y
    (squaredResiduals (centredSlope x y) (Scalar.mean y - centredSlope x y * Scalar.mean x) (x.zip y))
    (centredSums (Scalar.mean x) (Scalar.mean y) (x.zip y)).yy
  points := x.length

/-- The closed form is a check followed by the formula. -/
theorem closedForm_eq (x y : List α) : closedForm x y = (validate x y).map fun _ => centredLine x y := by
  rw [closedForm]
  cases validate x y with
  | error fault => rfl
  | ok checked => rfl

theorem centredSums_foldl_add (meanX meanY : α) (points : List (α × α)) (s : CentredSums α) :
    points.foldl (fun s (x, y) =>
      let dx := x - meanX
      let dy := y - meanY
      ⟨s.xx + dx * dx, s.xy + dx * dy, s.yy + dy * dy⟩) s =
    ⟨(points.map fun p => (p.1 - meanX) * (p.1 - meanX)).foldl (· + ·) s.xx,
      (points.map fun p => (p.1 - meanX) * (p.2 - meanY)).foldl (· + ·) s.xy,
      (points.map fun p => (p.2 - meanY) * (p.2 - meanY)).foldl (· + ·) s.yy⟩ := by
  induction points generalizing s with
  | nil => rfl
  | cons p rest ih =>
    rw [List.foldl_cons, ih]
    rfl

/-- The centred sums are three sums of their own, each added up point by point. -/
theorem centredSums_eq_foldl_add (meanX meanY : α) (points : List (α × α)) : centredSums meanX meanY points =
    ⟨(points.map fun p => (p.1 - meanX) * (p.1 - meanX)).foldl (· + ·) Scalar.zero,
      (points.map fun p => (p.1 - meanX) * (p.2 - meanY)).foldl (· + ·) Scalar.zero,
      (points.map fun p => (p.2 - meanY) * (p.2 - meanY)).foldl (· + ·) Scalar.zero⟩ :=
  centredSums_foldl_add meanX meanY points _

theorem ne_nil_of_validate {x y : List α} (valid : validate x y = .ok ()) : y ≠ [] := by
  intro empty
  rw [validate, empty] at valid
  by_cases paired : x.length = ([] : List α).length
  · -- No points at all are refused as too few, before their values are looked at.
    have nothing : x = [] := List.length_eq_zero_iff.1 paired
    have few : distinctCount ([] : List α) < minimumDistinct := by
      simp [distinctCount, dropRepeats, minimumDistinct]
    rw [nothing] at valid
    change (if distinctCount ([] : List α) < minimumDistinct then _ else _) = _ at valid
    rw [if_pos few] at valid
    cases valid
  · rw [if_pos paired] at valid
    cases valid

end

variable {K : Type} [ScalarField K]

/-- A shift of all ordinates together with their mean is not seen in centred sums. -/
theorem centredSums_map_add (meanX meanY d : K) (x y : List K) :
    centredSums meanX (meanY + d) (x.zip (y.map (· + d))) = centredSums meanX meanY (x.zip y) := by
  rw [centredSums, centredSums, List.zip_map_right, List.foldl_map]
  congr 1
  funext s p
  have distance : p.2 + d - (meanY + d) = p.2 - meanY := add_sub_add_right_eq_sub p.2 meanY d
  simp only [Prod.map_fst, Prod.map_snd, id_eq, distance]

/-- A shift of all ordinates together with the line leaves the distances from the line. -/
theorem squaredResiduals_map_add (slope intercept d : K) (x y : List K) :
    squaredResiduals slope (intercept + d) (x.zip (y.map (· + d))) =
      squaredResiduals slope intercept (x.zip y) := by
  have distance : ((fun p : K × K => Scalar.square (p.2 - (slope * p.1 + (intercept + d)))) ∘
      Prod.map id (· + d)) = fun p : K × K => Scalar.square (p.2 - (slope * p.1 + intercept)) := by
    funext p
    apply congrArg Scalar.square
    change p.2 + d - (slope * p.1 + (intercept + d)) = p.2 - (slope * p.1 + intercept)
    ring
  rw [squaredResiduals, squaredResiduals, List.zip_map_right, List.map_map, distance]

variable [LinearOrder K] [ExactScalar K]

/-- A common shift keeps equal values equal and others apart. -/
theorem constant_map_add (d : K) (y : List K) : constant (y.map (· + d)) = constant y := by
  cases y with
  | nil => rfl
  | cons first rest =>
    have same : ((Scalar.eq · (first + d)) ∘ (· + d)) = (Scalar.eq · first) := by
      funext v
      simp only [Function.comp_apply, ExactScalar.eq_eq, add_left_inj]
    have all : ((first :: rest).map (· + d)).all (Scalar.eq · (first + d)) =
        (first :: rest).all (Scalar.eq · first) := by
      rw [List.all_map, same]
    exact all

/-- A common shift of the times does not change the coefficient of determination. -/
theorem determination_map_add (d residual total : K) (y : List K) :
    determination (y.map (· + d)) residual total = determination y residual total := by
  rw [determination, determination, constant_map_add]

/-- The line through times that are all `d` larger is the old line, `d` higher. -/
theorem centredLine_map_add {y : List K} (present : y ≠ []) (d : K) (x : List K) :
    centredLine x (y.map (· + d)) = (centredLine x y).delayed d := by
  have mean := Scalar.mean_map_add present d
  have slope : centredSlope x (y.map (· + d)) = centredSlope x y := by
    rw [centredSlope, centredSlope, mean, centredSums_map_add]
  have intercept : Scalar.mean y + d - centredSlope x y * Scalar.mean x =
      Scalar.mean y - centredSlope x y * Scalar.mean x + d := add_sub_right_comm _ _ _
  rw [centredLine, centredLine, slope, mean, intercept, centredSums_map_add, squaredResiduals_map_add,
    determination_map_add]
  rfl

theorem checkFinite_eq_ok (what : String) (values : List K) : checkFinite what values = .ok () :=
  checkFinite_of_finite (fun v _ => ExactScalar.finite_eq v) what

/-- A common shift of the times does not change what is accepted. -/
theorem validate_map_add (d : K) (x y : List K) : validate x (y.map (· + d)) = validate x y := by
  simp only [validate, List.length_map, checkFinite_eq_ok]

/-- A fit of times that are all `d` larger fails where it failed before, and else gives the line `d` higher. -/
theorem closedForm_map_add (d : K) (x y : List K) :
    closedForm x (y.map (· + d)) = (closedForm x y).map (Fit.delayed d) := by
  rw [closedForm_eq, closedForm_eq, validate_map_add]
  cases valid : validate x y with
  | error fault => rfl
  | ok checked =>
    have line := centredLine_map_add (ne_nil_of_validate valid) d x
    exact congrArg Except.ok line

end Regression

end CycleCost
