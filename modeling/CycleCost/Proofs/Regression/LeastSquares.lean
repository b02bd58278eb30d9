/-
Module: CycleCost.Proofs.Regression.LeastSquares
Purpose: What accepted points are given as their line, when nothing is rounded: the one line of least squares,
  computed without a division by zero, and the share of the variation that it explains. A line through all
  points leaves nothing, so it is the line that is found.
Main exports: Regression.Level, Regression.Through, Regression.squaredResiduals_eq_zero_iff,
  Regression.rSquared_eq, Regression.rSquared_eq_one_iff, Regression.closedForm_is_least_squares
-/
import CycleCost.Proofs.Regression.Division

namespace CycleCost.Regression

variable {K : Type}

/-- All numbers of a list are the same. -/
def Level (y : List K) : Prop := ∀ u ∈ y, ∀ v ∈ y, u = v

/-- The line goes through all points. -/
def Through [Add K] [Mul K] (slope intercept : K) (points : List (K × K)) : Prop :=
  ∀ p ∈ points, p.2 = slope * p.1 + intercept

variable [LinearOrder K] [ScalarField K] [ExactScalar K] {x y : List K}

/-! ### Lines through all points -/

theorem squaredResiduals_nonneg (slope intercept : K) (points : List (K × K)) :
    0 ≤ squaredResiduals slope intercept points := by
  rw [squaredResiduals_eq_sum]
  exact sum_squares_nonneg _ _

/-- A line without residuals goes through every point. -/
theorem squaredResiduals_eq_zero_iff {slope intercept : K} {points : List (K × K)} :
    squaredResiduals slope intercept points = 0 ↔ Through slope intercept points := by
  rw [squaredResiduals_eq_sum, sum_squares_eq_zero_iff]
  simp only [sub_eq_zero, Through]

/-- A line through all points leaves nothing, and only the fitted line leaves as little as that. -/
theorem eq_of_through (paired : x.length = y.length) (present : x ≠ []) (spread : 0 < (sums x y).xx)
    {slope intercept : K} (through : Through slope intercept (x.zip y)) :
    (centredLine x y).slope = slope ∧ (centredLine x y).intercept = intercept := by
  by_contra other
  have differ : (slope, intercept) ≠ ((centredLine x y).slope, (centredLine x y).intercept) := by
    intro same
    obtain ⟨slopes, intercepts⟩ := Prod.mk.inj same
    exact other ⟨slopes.symm, intercepts.symm⟩
  have less := squaredResiduals_lt paired present spread differ
  rw [squaredResiduals_eq_zero_iff.2 through] at less
  exact absurd less (not_lt.2 (squaredResiduals_nonneg _ _ _))

/-! ### The share of the variation -/

/-- The fitted line leaves no more than there is. -/
theorem squaredResiduals_le_variation (paired : x.length = y.length) (present : x ≠ [])
    (spread : 0 < (sums x y).xx) :
    squaredResiduals (centredLine x y).slope (centredLine x y).intercept (x.zip y) ≤ (sums x y).yy := by
  rw [squaredResiduals_centredLine paired present spread]
  exact sub_le_self _ (div_nonneg (sq_nonneg _) spread.le)

theorem variation_pos_of_not_level (paired : x.length = y.length) (varies : ¬ Level y) :
    0 < (sums x y).yy := by
  have some : ∃ u ∈ y, ∃ v ∈ y, u ≠ v := by
    by_contra none
    push Not at none
    exact varies none
  obtain ⟨u, first, v, second, differ⟩ := some
  exact variation_pos paired first second differ

/-- Where all times are equal the coefficient of determination is zero. -/
theorem rSquared_of_level (level : Level y) : (centredLine x y).rSquared = 0 :=
  determination_of_constant (constant_eq_true_iff.2 level)

/-- Where the ordinates vary, the share is the quotient itself: it needs no clamping. -/
theorem rSquared_eq (paired : x.length = y.length) (present : x ≠ []) (spread : 0 < (sums x y).xx)
    (varies : ¬ Level y) :
    (centredLine x y).rSquared =
      1 - squaredResiduals (centredLine x y).slope (centredLine x y).intercept (x.zip y) / (sums x y).yy := by
  have different : constant y = false := Bool.eq_false_iff.2 (mt constant_eq_true_iff.1 varies)
  exact determination_eq different (variation_pos_of_not_level paired varies) (squaredResiduals_nonneg _ _ _)
    (squaredResiduals_le_variation paired present spread)

/-- Where the work is spread the coefficient of determination lies between zero and one. -/
theorem rSquared_mem (paired : x.length = y.length) (present : x ≠ []) (spread : 0 < (sums x y).xx) :
    0 ≤ (centredLine x y).rSquared ∧ (centredLine x y).rSquared ≤ 1 := by
  by_cases level : Level y
  · rw [rSquared_of_level level]
    exact ⟨le_rfl, zero_le_one⟩
  · have variation := variation_pos_of_not_level paired level
    have most := squaredResiduals_le_variation paired present spread
    have least := squaredResiduals_nonneg (centredLine x y).slope (centredLine x y).intercept (x.zip y)
    rw [rSquared_eq paired present spread level]
    exact ⟨sub_nonneg.2 ((div_le_one variation).2 most), sub_le_self 1 (div_nonneg least variation.le)⟩

/-- The line explains everything when there is something to explain and a line through all points. -/
theorem rSquared_eq_one_iff (paired : x.length = y.length) (present : x ≠ []) (spread : 0 < (sums x y).xx) :
    (centredLine x y).rSquared = 1 ↔
      ¬ Level y ∧ ∃ slope intercept, Through slope intercept (x.zip y) := by
  by_cases level : Level y
  · rw [rSquared_of_level level]
    exact ⟨fun one => absurd one zero_ne_one, fun known => absurd level known.1⟩
  · have variation := variation_pos_of_not_level paired level
    rw [rSquared_eq paired present spread level, sub_eq_self, div_eq_zero_iff, or_iff_left variation.ne',
      squaredResiduals_eq_zero_iff]
    constructor
    · intro through
      exact ⟨level, _, _, through⟩
    · rintro ⟨-, slope, intercept, through⟩
      obtain ⟨slopes, intercepts⟩ := eq_of_through paired present spread through
      rw [slopes, intercepts]
      exact through

/-! ### The line of accepted points -/

/-- Accepted points have a line, and no quotient on the way to it divides by zero. It leaves less than every
    other line; its coefficient of determination is the explained share of the variation, which lies between
    zero and one by itself; and a line through all points is the one that is found. -/
theorem closedForm_is_least_squares (valid : validate x y = .ok ()) :
    ∃ line, closedForm x y = .ok line ∧ line.points = x.length ∧
      closedForm (x.map Checked.value) (y.map Checked.value) = .ok (line.map Checked.value) ∧
      (∀ slope intercept, (slope, intercept) ≠ (line.slope, line.intercept) →
        squaredResiduals line.slope line.intercept (x.zip y) < squaredResiduals slope intercept (x.zip y)) ∧
      (0 ≤ line.rSquared ∧ line.rSquared ≤ 1) ∧
      (¬ Level y → line.rSquared = 1 - squaredResiduals line.slope line.intercept (x.zip y) /
        (y.map fun v => (v - Scalar.mean y) ^ 2).sum) ∧
      (Level y → line.rSquared = 0) ∧
      (line.rSquared = 1 ↔ ¬ Level y ∧ ∃ slope intercept, Through slope intercept (x.zip y)) ∧
      (∀ slope intercept, Through slope intercept (x.zip y) →
        line.slope = slope ∧ line.intercept = intercept) := by
  obtain ⟨paired, u, first, v, second, differ⟩ := validate_eq_ok_iff.1 valid
  have present : x ≠ [] := List.ne_nil_of_mem first
  have spread : 0 < (sums x y).xx := spread_pos paired first second differ
  refine ⟨centredLine x y, ?line, rfl, closedForm_value valid,
    fun slope intercept other => squaredResiduals_lt paired present spread other,
    rSquared_mem paired present spread, ?share, rSquared_of_level,
    rSquared_eq_one_iff paired present spread,
    fun slope intercept through => eq_of_through paired present spread through⟩
  case line =>
    rw [closedForm_eq, valid]
    rfl
  case share =>
    rw [← variation_eq paired]
    exact rSquared_eq paired present spread

/-- Four points, two of them equal, on the line of slope two through one. -/
theorem closedForm_is_least_squares_line :
    ∃ line : Fit ℚ, closedForm [3, 1, 2, 1] [7, 3, 5, 3] = .ok line ∧
      line.slope = 2 ∧ line.intercept = 1 ∧ line.rSquared = 1 := by
  have valid : validate ([3, 1, 2, 1] : List ℚ) [7, 3, 5, 3] = .ok () :=
    validate_eq_ok_iff.2 ⟨rfl, 3, by decide, 1, by decide, by decide⟩
  have through : Through (2 : ℚ) 1 (List.zip [3, 1, 2, 1] [7, 3, 5, 3]) := by
    rw [Through]
    decide +kernel
  have varies : ¬ Level ([7, 3, 5, 3] : List ℚ) := by
    rw [Level]
    decide
  obtain ⟨line, computed, -, -, -, -, -, -, one, found⟩ := closedForm_is_least_squares valid
  obtain ⟨slope, intercept⟩ := found 2 1 through
  exact ⟨line, computed, slope, intercept, one.2 ⟨varies, 2, 1, through⟩⟩

end CycleCost.Regression
