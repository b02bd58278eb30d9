/-
Module: CycleCost.Proofs.Regression.Division
Purpose: The least-squares line never divides by zero. Computed with arithmetic in which a quotient by zero is
  undefined, the same formulas give the same line, with every number of it defined.
Main exports: Fit.map, Regression.validate_value, Regression.closedForm_value
-/
import CycleCost.Proofs.Arithmetic.Checked
import CycleCost.Proofs.Regression.Optimality

namespace CycleCost

/-- A line in other numbers. -/
def Fit.map {α β : Type} (f : α → β) (line : Fit α) : Fit β :=
  ⟨f line.slope, f line.intercept, f line.rSquared, line.points⟩

/-- Centred sums in other numbers. -/
def Regression.CentredSums.map {α β : Type} (f : α → β) (sums : CentredSums α) : CentredSums β :=
  ⟨f sums.xx, f sums.xy, f sums.yy⟩

/-- Repeats are dropped alike before and after a map that the tests respect. -/
theorem dropRepeats_go_map {α β : Type} {eq : α → α → Bool} {eq' : β → β → Bool} {f : α → β}
    (same : ∀ a b, eq' (f a) (f b) = eq a b) (last : α) (list : List α) :
    dropRepeats.go eq' (f last) (list.map f) = (dropRepeats.go eq last list).map f := by
  induction list generalizing last with
  | nil => rfl
  | cons c rest ih =>
    rw [List.map_cons, dropRepeats.go, dropRepeats.go, same, ih, ih]
    split <;> rfl

/-- Repeats may be dropped before or after a change that keeps which elements are equal. -/
theorem dropRepeats_map {α β : Type} {eq : α → α → Bool} {eq' : β → β → Bool} {f : α → β}
    (same : ∀ a b, eq' (f a) (f b) = eq a b) (list : List α) :
    dropRepeats eq' (list.map f) = (dropRepeats eq list).map f := by
  cases list with
  | nil => rfl
  | cons c rest => rw [List.map_cons, dropRepeats, dropRepeats, dropRepeats_go_map same, List.map_cons]

namespace Regression

open Checked

/-! ### The points -/

section

variable {K : Type} [Scalar K]

theorem distinctCount_value (x : List K) : distinctCount (x.map value) = distinctCount x := by
  have order : ∀ a ∈ x, ∀ b ∈ x, Scalar.totalLe a b = Scalar.totalLe (value a) (value b) := by
    intro a _ b _
    rfl
  have sorted : (x.map value).mergeSort Scalar.totalLe = (x.mergeSort Scalar.totalLe).map value :=
    (List.map_mergeSort order).symm
  have same : ∀ a b : K, Scalar.eq (value a) (value b) = Scalar.eq a b := fun _ _ => rfl
  rw [distinctCount, distinctCount, sorted, dropRepeats_map same, List.length_map]

theorem checkFinite_value (what : String) (values : List K) :
    checkFinite what (values.map value) = checkFinite what values := by
  rw [checkFinite, checkFinite, List.find?_map]
  have same : (fun v : Checked K => !Scalar.finite v) ∘ value = fun v => !Scalar.finite v := rfl
  rw [same]
  cases values.find? fun v => !Scalar.finite v with
  | none => rfl
  | some v => rfl

/-- Division with a check accepts the same lists. -/
theorem validate_value (x y : List K) : validate (x.map value) (y.map value) = validate x y := by
  rw [validate, validate, checkFinite_value, checkFinite_value, distinctCount_value, List.length_map,
    List.length_map]

omit [Scalar K] in
theorem zip_value (x y : List K) :
    (x.map value).zip (y.map value) = (x.zip y).map (Prod.map value value) :=
  List.zip_map

/-! ### The sums -/

theorem centredSums_value (meanX meanY : K) (points : List (K × K)) :
    centredSums (value meanX) (value meanY) (points.map (Prod.map value value)) =
      (centredSums meanX meanY points).map value := by
  unfold centredSums
  rw [List.foldl_map]
  change List.foldl _ (CentredSums.map value ⟨Scalar.zero, Scalar.zero, Scalar.zero⟩) points = _
  apply List.foldl_hom (CentredSums.map value)
  intro s p
  rfl

theorem squaredResiduals_value (slope intercept : K) (points : List (K × K)) :
    squaredResiduals (value slope) (value intercept) (points.map (Prod.map value value)) =
      value (squaredResiduals slope intercept points) := by
  rw [squaredResiduals, squaredResiduals, ← sum_value, List.map_map, List.map_map]
  rfl

theorem constant_value (y : List K) : constant (y.map value) = constant y := by
  cases y with
  | nil => rfl
  | cons first rest =>
    have all : ((first :: rest).map value).all (Scalar.eq · (value first)) =
        (first :: rest).all (Scalar.eq · first) := List.all_map
    exact all

/-- The variation is looked at before it becomes a divisor. -/
theorem determination_value (y : List K) (residual total : K) :
    determination (y.map value) (value residual) (value total) = value (determination y residual total) := by
  rw [determination, determination, constant_value]
  cases none : constant y || Scalar.eq total Scalar.zero with
  | true =>
    have same : (constant y || Scalar.eq (value total) Scalar.zero) = true := none
    rw [same]
    rfl
  | false =>
    have same : (constant y || Scalar.eq (value total) Scalar.zero) = false := none
    rw [same, if_neg Bool.false_ne_true, if_neg Bool.false_ne_true,
      value_div (Bool.or_eq_false_iff.1 none).2, ← clamp_value]
    rfl

end

/-! ### The line -/

variable {K : Type} [LinearOrder K] [ScalarField K] [ExactScalar K]

/-- Accepted points have a line all of whose numbers are defined. -/
theorem closedForm_value {x y : List K} (valid : validate x y = .ok ()) :
    closedForm (x.map value) (y.map value) = .ok ((centredLine x y).map value) := by
  obtain ⟨paired, u, first, v, second, differ⟩ := validate_eq_ok_iff.1 valid
  have present : x ≠ [] := List.ne_nil_of_mem first
  have spread : (sums x y).xx ≠ 0 := (spread_pos paired first second differ).ne'
  have slope : centredSlope (x.map value) (y.map value) = value (centredSlope x y) := by
    rw [centredSlope, mean_value present, mean_value (ne_nil_of_validate valid), zip_value, centredSums_value]
    exact value_div_of_ne spread
  rw [closedForm_eq, validate_value, valid]
  change Except.ok (centredLine (x.map value) (y.map value)) = _
  rw [centredLine, slope, mean_value present, mean_value (ne_nil_of_validate valid), zip_value,
    centredSums_value, List.length_map]
  simp only [value_mul, value_sub, squaredResiduals_value, CentredSums.map, determination_value]
  rfl

end Regression

end CycleCost
