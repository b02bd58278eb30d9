/-
Module: CycleCost.Proofs.Regression.Rotation
Purpose: Both ways to the least-squares line are one estimator. A turn keeps the directions a frame and the columns
  those of the directions, and the turn that is chosen makes the columns orthogonal, so the solution by
  rotations is the truncated one. Where both singular values reach the cutoff that is the line by centred sums.
Main exports: Regression.turn_proper, Regression.turn_orthogonal, Regression.leastSquares_truncated,
  Regression.linalgWith, Regression.backends_agree
-/
import CycleCost.Proofs.Regression.Singular
import CycleCost.Regression.Backend

namespace CycleCost.Regression

section

variable {K : Type} [LinearOrder K] [ScalarField K] [ExactRoots K]

/-! ### The turn -/

theorem one_add_square_pos (z : K) : 0 < 1 + z * z := add_pos_of_pos_of_nonneg one_pos (mul_self_nonneg z)

/-- The smaller tangent that makes columns orthogonal. -/
def tangent (z : K) : K :=
  let size := Scalar.one / (Scalar.magnitude z + Scalar.root (Scalar.one + z * z))
  if Scalar.lt z Scalar.zero then Scalar.zero - size else size

/-- The tangent solves the quadratic equation of the turn. -/
theorem tangent_eq (z : K) : tangent z * tangent z + 2 * z * tangent z = 1 := by
  have root := Scalar.root_pos (one_add_square_pos z)
  have square := ExactRoots.root_mul_self (1 + z * z) (one_add_square_pos z).le
  rw [tangent, Scalar.one_eq, Scalar.zero_eq, ExactScalar.magnitude_eq, ExactScalar.lt_eq]
  generalize Scalar.root (1 + z * z) = r at root square ⊢
  have denominator : |z| + r ≠ 0 := (add_pos_of_nonneg_of_pos (abs_nonneg z) root).ne'
  -- The sign of the tangent is that of `z`, so both signs come down to one equation for its size.
  have size : 1 / (|z| + r) * (1 / (|z| + r)) + 2 * |z| * (1 / (|z| + r)) = 1 := by
    have magnitude := abs_mul_abs_self z
    field_simp
    linear_combination magnitude - square
  by_cases negative : z < 0
  · have sign : |z| = -z := abs_of_neg negative
    simp only [decide_eq_true negative, if_true]
    linear_combination size - 2 * (1 / (|z| + r)) * sign
  · have sign : |z| = z := abs_of_nonneg (not_lt.1 negative)
    simp only [decide_eq_false negative, Bool.false_eq_true, if_false]
    linear_combination size - 2 * (1 / (|z| + r)) * sign

theorem turn_of_ne {aa bb ab : K} (mixed : ab ≠ 0) :
    let t := tangent ((bb - aa) / (2 * ab))
    turn aa bb ab = ⟨Scalar.one / Scalar.root (Scalar.one + t * t),
      Scalar.one / Scalar.root (Scalar.one + t * t) * t⟩ := by
  intro t
  have other : Scalar.eq ab Scalar.zero = false := by
    rw [ExactScalar.eq_eq, Scalar.zero_eq]
    exact decide_eq_false mixed
  have two : (Scalar.ofNat 2 : K) = 2 := ExactScalar.ofNat_eq 2
  rw [turn, if_neg (Bool.eq_false_iff.1 other), two]
  rfl

/-- Columns at right angles are not turned. -/
theorem turn_zero (aa bb : K) : turn aa bb 0 = ⟨1, 0⟩ := by
  rw [turn, ExactScalar.eq_eq, Scalar.zero_eq, Scalar.one_eq, decide_eq_true rfl, if_pos rfl]

/-- Cosine and sine belong to one angle. -/
theorem turn_proper (aa bb ab : K) :
    (turn aa bb ab).cosine * (turn aa bb ab).cosine + (turn aa bb ab).sine * (turn aa bb ab).sine = 1 := by
  by_cases mixed : ab = 0
  · rw [mixed, turn_zero]
    ring
  · rw [turn_of_ne mixed, Scalar.one_eq]
    generalize tangent ((bb - aa) / (2 * ab)) = t
    have root := Scalar.root_pos (one_add_square_pos t)
    have square := ExactRoots.root_mul_self (1 + t * t) (one_add_square_pos t).le
    generalize Scalar.root (1 + t * t) = r at root square
    have nonzero := root.ne'
    field_simp
    linear_combination -square

/-- The mixed product after the turn, which is zero. -/
theorem turn_orthogonal (aa bb ab : K) :
    (turn aa bb ab).cosine * (turn aa bb ab).sine * (aa - bb) +
      ((turn aa bb ab).cosine * (turn aa bb ab).cosine - (turn aa bb ab).sine * (turn aa bb ab).sine) * ab =
      0 := by
  by_cases mixed : ab = 0
  · rw [mixed, turn_zero]
    ring
  · have quotient : (bb - aa) / (2 * ab) * (2 * ab) = bb - aa :=
      div_mul_cancel₀ _ (mul_ne_zero two_ne_zero mixed)
    have equation := tangent_eq ((bb - aa) / (2 * ab))
    rw [turn_of_ne mixed, Scalar.one_eq]
    generalize (bb - aa) / (2 * ab) = z at quotient equation
    generalize 1 / Scalar.root (1 + tangent z * tangent z) = c
    linear_combination c * c * tangent z * quotient - c * c * ab * equation

/-! ### The columns under a turn -/

/-- The columns are those of the directions, and the directions are a frame. -/
structure Columns.Follows (m : Columns K) (x : List K) : Prop where
  first : m.first = along x m.firstDirection
  second : m.second = along x m.secondDirection
  frame : Frame m.firstDirection m.secondDirection

namespace Columns

variable {x : List K} {m : Columns K}

theorem design_follows (x : List K) : (design x).Follows x where
  first := by
    simp only [design, along, Scalar.one_eq, Scalar.zero_eq, mul_one, add_zero, List.map_id']
  second := by
    simp only [design, along, Scalar.one_eq, Scalar.zero_eq, mul_zero, zero_add]
  frame := by
    constructor <;> simp [design]

omit [LinearOrder K] [ExactRoots K] in
/-- A combination of two columns is the column of the combined direction. -/
theorem zipWith_along (p q : K) (x : List K) (d e : K × K) :
    List.zipWith (fun a b => p * a + q * b) (along x d) (along x e) =
      along x (p * d.1 + q * e.1, p * d.2 + q * e.2) := by
  rw [along, along, along, List.zipWith_map, List.zipWith_self]
  apply List.map_congr_left
  intro a _
  ring

/-- A turn takes directions and columns along. -/
theorem Follows.apply (follows : m.Follows x) {t : Turn K}
    (proper : t.cosine * t.cosine + t.sine * t.sine = 1) : (m.apply t).Follows x where
  first := by
    have turned := zipWith_along t.cosine (-t.sine) x m.firstDirection m.secondDirection
    simp only [neg_mul, ← sub_eq_add_neg] at turned
    rw [← follows.first, ← follows.second] at turned
    exact turned
  second := by
    have turned := zipWith_along t.sine t.cosine x m.firstDirection m.secondDirection
    rw [← follows.first, ← follows.second] at turned
    exact turned
  frame := by
    obtain ⟨first, second, apart⟩ := follows.frame
    simp only [Columns.apply]
    constructor
    · linear_combination t.cosine * t.cosine * first + t.sine * t.sine * second -
        2 * t.cosine * t.sine * apart + proper
    · linear_combination t.sine * t.sine * first + t.cosine * t.cosine * second +
        2 * t.cosine * t.sine * apart + proper
    · linear_combination t.cosine * t.sine * first - t.cosine * t.sine * second +
        (t.cosine * t.cosine - t.sine * t.sine) * apart

/-- A further turn keeps the columns along directions. -/
theorem Follows.orthogonalize (follows : m.Follows x) : m.orthogonalize.Follows x :=
  follows.apply (turn_proper _ _ _)

/-- The chosen turn leaves columns at right angles. -/
theorem Follows.inner_orthogonalize (follows : m.Follows x) :
    inner m.orthogonalize.first m.orthogonalize.second = 0 := by
  have turned := follows.orthogonalize
  have mixed := turn_orthogonal (inner m.first m.first) (inner m.second m.second) (inner m.first m.second)
  rw [turned.first, turned.second, inner_along_along]
  simp only [Columns.orthogonalize, Columns.apply]
  generalize turn (inner m.first m.first) (inner m.second m.second) (inner m.first m.second) = t at mixed ⊢
  rw [follows.first, follows.second, inner_along_along, inner_along_along, inner_along_along] at mixed
  linear_combination mixed

end Columns

/-! ### The line -/

/-- The rotations find the truncated solution. -/
theorem leastSquares_truncated {x y : List K} (paired : x.length = y.length) :
    TruncatedSolution x y (leastSquares x y) := by
  have turned := (Columns.design_follows x).orthogonalize
  have follows := turned.orthogonalize
  have columns := turned.inner_orthogonalize
  rw [follows.first, follows.second] at columns
  have solution := follows.frame.truncatedSolution columns paired
  rw [byCoefficients, ← follows.first, ← follows.second] at solution
  exact solution

end

section

variable {α : Type} [Scalar α]

/-- The least-squares line through a solver for slope and intercept. -/
def linalgWith (solve : List α → List α → α × α) (x y : List α) : Result (Fit α) := do
  validate x y
  let (slope, intercept) := solve x y
  let residual := x.zipWith (fun a b => b - (a * slope + intercept)) y
  let center := Scalar.mean y
  let centred := y.map (· - center)
  return {
    slope
    intercept
    rSquared := determination y (inner residual residual) (inner centred centred)
    points := x.length }

/-- The back end is its own solver behind the common check. -/
theorem linalg_eq (x y : List α) : linalg x y = linalgWith leastSquares x y := rfl

/-- Lists that fail the check are refused before any solver runs. -/
theorem linalgWith_of_error {x y : List α} {fault : Fault} (refused : validate x y = .error fault)
    (solve : List α → List α → α × α) : linalgWith solve x y = .error fault := by
  rw [linalgWith, refused]
  rfl

/-- Both back ends refuse the lists that fail the check. -/
theorem fit_of_error {x y : List α} {fault : Fault} (refused : validate x y = .error fault) (backend : Backend) :
    backend.fit x y = .error fault := by
  cases backend with
  | closedForm =>
    change closedForm x y = _
    rw [closedForm_eq, refused]
    rfl
  | linalg => exact (linalg_eq x y).trans (linalgWith_of_error refused leastSquares)

end

section

variable {K : Type} [LinearOrder K] [ScalarField K] [ExactScalar K] {x y : List K}

/-- The squared length of the residual. -/
theorem inner_residual (slope intercept : K) (x y : List K) :
    inner (x.zipWith (fun a b => b - (a * slope + intercept)) y)
      (x.zipWith (fun a b => b - (a * slope + intercept)) y) = squaredResiduals slope intercept (x.zip y) := by
  have residual : x.zipWith (fun a b => b - (a * slope + intercept)) y =
      (x.zip y).map fun p => p.2 - (p.1 * slope + intercept) := by
    rw [List.map_zip_eq_zipWith]
    rfl
  rw [residual, inner_map_map, squaredResiduals_eq_sum]
  simp only [mul_comm _ slope, sq]

/-- A solver that finds the slope and the intercept by centred sums has the whole line by centred sums. -/
theorem linalgWith_eq (valid : validate x y = .ok ()) {solve : List K → List K → K × K}
    (found : solve x y = ((centredLine x y).slope, (centredLine x y).intercept)) :
    linalgWith solve x y = .ok (centredLine x y) := by
  obtain ⟨paired, -⟩ := validate_eq_ok_iff.1 valid
  have centred : inner (y.map (· - Scalar.mean y)) (y.map (· - Scalar.mean y)) = (sums x y).yy := by
    rw [inner_map_map, variation_eq paired]
    simp only [sq]
  rw [linalgWith, valid]
  change Except.ok _ = _
  simp only [found, inner_residual, centred]
  rfl

end

variable {K : Type} [LinearOrder K] [ScalarField K] [ExactRoots K]

/-- Points that are refused are refused by both backends with one error. For all others with singular values
    that reach the cutoff both have one line, whichever solver finds the truncated solution. -/
theorem backends_agree :
    (∀ (α : Type) [Scalar α] (x y : List α) (fault : Fault), validate x y = .error fault →
      (∀ backend : Backend, backend.fit x y = .error fault) ∧
        ∀ solve, linalgWith solve x y = .error fault) ∧
    ∀ x y : List K, validate x y = .ok () →
      (∀ μ, Module.End.HasEigenvalue (Matrix.toLin' (gram x)) μ → cutoff * cutoff ≤ μ) →
      ∃ line, Backend.closedForm.fit x y = .ok line ∧ Backend.linalg.fit x y = .ok line ∧
        ∀ solve, TruncatedSolution x y (solve x y) → linalgWith solve x y = .ok line := by
  refine ⟨fun α _ x y fault refused => ⟨fit_of_error refused, linalgWith_of_error refused⟩, ?same⟩
  intro x y valid singular
  obtain ⟨paired, u, first, v, second, differ⟩ := validate_eq_ok_iff.1 valid
  have present : x ≠ [] := List.ne_nil_of_mem first
  have spread : 0 < (sums x y).xx := spread_pos paired first second differ
  have line (solve) (truncated : TruncatedSolution x y (solve x y)) :
      linalgWith solve x y = .ok (centredLine x y) :=
    linalgWith_eq valid (truncated.eq_centredLine paired present spread singular)
  refine ⟨centredLine x y, ?closed,
    (linalg_eq x y).trans (line leastSquares (leastSquares_truncated paired)), line⟩
  change closedForm x y = _
  rw [closedForm_eq, valid]
  rfl

/-- Two points at different abscissas have large enough singular values. -/
theorem backends_agree_two_points :
    ∃ line : Fit ℝ, Backend.closedForm.fit [0, 1] [1, 3] = .ok line ∧
      Backend.linalg.fit [0, 1] [1, 3] = .ok line := by
  have valid : validate ([0, 1] : List ℝ) [1, 3] = .ok () :=
    validate_eq_ok_iff.2 ⟨rfl, 0, by simp, 1, by simp, zero_ne_one⟩
  have singular (μ : ℝ) (eigenvalue : Module.End.HasEigenvalue (Matrix.toLin' (gram [0, 1])) μ) :
      cutoff * cutoff ≤ μ := by
    obtain ⟨v, vector⟩ := eigenvalue.exists_hasEigenvector
    have image := vector.apply_eq_smul
    rw [Matrix.toLin'_apply, gram_eq] at image
    have first : v 0 + v 1 = μ * v 0 := by
      simpa [Matrix.vecHead, Matrix.vecTail] using congrFun image 0
    have second : v 0 + 2 * v 1 = μ * v 1 := by
      simpa [Matrix.vecHead, Matrix.vecTail] using congrFun image 1
    have nonzero : v 0 ≠ 0 := by
      intro zero
      rw [zero, zero_add, mul_zero] at first
      exact vector.2 (funext fun i => by fin_cases i <;> assumption)
    have characteristic : μ * μ - 3 * μ + 1 = 0 := by
      apply mul_right_cancel₀ nonzero
      linear_combination (2 - μ) * first - second
    have small : (cutoff * cutoff : ℝ) ≤ 1 / 4 := by
      rw [cutoff, Scalar.one_eq, ExactScalar.ofNat_eq]
      norm_num
    nlinarith [mul_self_nonneg μ]
  obtain ⟨line, closed, linalg, -⟩ := backends_agree.2 [0, 1] [1, 3] valid singular
  exact ⟨line, closed, linalg⟩

end CycleCost.Regression
