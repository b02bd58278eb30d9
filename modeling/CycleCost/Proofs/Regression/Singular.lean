/-
Module: CycleCost.Proofs.Regression.Singular
Purpose: What a solution by singular values is, and why it is the line by centred sums. Along a frame of directions
  whose columns are at right angles the squared lengths of the columns are the eigenvalues of the Gram matrix.
  Directions with a singular value below the cutoff are left out; while there are none, the solution
  minimizes the squared residuals themselves, and only the fitted line does that.
Main exports: Regression.Frame, Regression.designMatrix, Regression.gram, Regression.Frame.hasEigenvalue_gram,
  Regression.TruncatedSolution, Regression.TruncatedSolution.eq_centredLine
-/
import CycleCost.Proofs.Arithmetic.Root
import CycleCost.Proofs.Regression.Optimality

namespace CycleCost.Regression

section

variable {K : Type} [LinearOrder K] [ScalarField K] [ExactScalar K] {x y : List K}

/-! ### Columns of the design matrix -/

theorem inner_eq_sum (u v : List K) : inner u v = ((u.zip v).map fun p => p.1 * p.2).sum := by
  rw [inner, List.sum_eq_foldl, List.foldl_map, Scalar.zero_eq]

theorem inner_map_map {β : Type} (f g : β → K) (list : List β) :
    inner (list.map f) (list.map g) = (list.map fun b => f b * g b).sum := by
  rw [inner_eq_sum, List.zip_map', List.map_map]
  rfl

theorem inner_map_left (f : K → K) (x y : List K) :
    inner (x.map f) y = ((x.zip y).map fun p => f p.1 * p.2).sum := by
  rw [inner_eq_sum, List.zip_map_left, List.map_map]
  rfl

theorem inner_self_nonneg (u : List K) : 0 ≤ inner u u := by
  have squares := inner_map_map (fun a => a) (fun a => a) u
  simp only [List.map_id', ← sq] at squares
  rw [squares]
  exact sum_squares_nonneg _ _

/-- The column to which the design matrix sends a direction. -/
def along (x : List K) (d : K × K) : List K := x.map fun a => a * d.1 + d.2

/-- The product of two columns, by the products and the sum of the abscissas. -/
theorem inner_along_along (x : List K) (d e : K × K) :
    inner (along x d) (along x e) =
      d.1 * e.1 * (x.map fun a => a * a).sum + (d.1 * e.2 + d.2 * e.1) * x.sum + d.2 * e.2 * x.length := by
  rw [along, along, inner_map_map]
  induction x with
  | nil => simp
  | cons a rest ih =>
    simp only [List.map_cons, List.sum_cons, List.length_cons, Nat.cast_add, Nat.cast_one, ih]
    ring

/-- The squared residuals of a combination of two directions, by the products of their columns. -/
theorem squaredResiduals_combination (paired : x.length = y.length) (d e : K × K) (s t : K) :
    squaredResiduals (s * d.1 + t * e.1) (s * d.2 + t * e.2) (x.zip y) =
      (y.map fun v => v * v).sum - 2 * s * inner (along x d) y - 2 * t * inner (along x e) y +
        s * s * inner (along x d) (along x d) + 2 * s * t * inner (along x d) (along x e) +
        t * t * inner (along x e) (along x e) := by
  rw [squaredResiduals_eq_sum, along, along, inner_map_left, inner_map_left, inner_map_map, inner_map_map,
    inner_map_map, ← map_ordinates paired fun v => v * v, ← map_abscissas paired, ← map_abscissas paired,
    ← map_abscissas paired]
  induction x.zip y with
  | nil => simp
  | cons p rest ih =>
    simp only [List.map_cons, List.sum_cons, ih]
    ring

/-! ### Singular directions -/

/-- Two directions of length one at right angles. -/
structure Frame (d e : K × K) : Prop where
  first : d.1 * d.1 + d.2 * d.2 = 1
  second : e.1 * e.1 + e.2 * e.2 = 1
  apart : d.1 * e.1 + d.2 * e.2 = 0

namespace Frame

variable {d e : K × K}

omit [LinearOrder K] [ExactScalar K] in
theorem symm (frame : Frame d e) : Frame e d where
  first := frame.second
  second := frame.first
  apart := by
    rw [mul_comm e.1, mul_comm e.2]
    exact frame.apart

omit [LinearOrder K] [ExactScalar K] in
/-- The coordinates of the plane are at right angles in a frame as well. -/
theorem coordinates (frame : Frame d e) :
    d.1 * d.1 + e.1 * e.1 = 1 ∧ d.1 * d.2 + e.1 * e.2 = 0 ∧ d.2 * d.2 + e.2 * e.2 = 1 := by
  have rows : !![d.1, d.2; e.1, e.2] * !![d.1, e.1; d.2, e.2] = 1 := by
    rw [Matrix.mul_fin_two, Matrix.one_fin_two, frame.first, frame.second, frame.apart, frame.symm.apart]
  have columns : !![d.1, e.1; d.2, e.2] * !![d.1, d.2; e.1, e.2] = 1 := mul_eq_one_comm.1 rows
  rw [Matrix.mul_fin_two, Matrix.one_fin_two] at columns
  exact ⟨congrFun (congrFun columns 0) 0, congrFun (congrFun columns 0) 1, congrFun (congrFun columns 1) 1⟩

end Frame

/-- The component of a vector in a direction. -/
def component (d v : K × K) : K := d.1 * v.1 + d.2 * v.2

namespace Frame

variable {d e : K × K}

omit [LinearOrder K] [ExactScalar K] in
/-- A vector is put together from its components. -/
theorem resolve (frame : Frame d e) (v : K × K) :
    (component d v * d.1 + component e v * e.1, component d v * d.2 + component e v * e.2) = v := by
  obtain ⟨first, mixed, second⟩ := frame.coordinates
  apply Prod.ext
  · change (d.1 * v.1 + d.2 * v.2) * d.1 + (e.1 * v.1 + e.2 * v.2) * e.1 = v.1
    linear_combination v.1 * first + v.2 * mixed
  · change (d.1 * v.1 + d.2 * v.2) * d.2 + (e.1 * v.1 + e.2 * v.2) * e.2 = v.2
    linear_combination v.1 * mixed + v.2 * second

omit [LinearOrder K] [ExactScalar K] in
theorem component_first (frame : Frame d e) (s t : K) :
    component d (s * d.1 + t * e.1, s * d.2 + t * e.2) = s := by
  rw [component]
  linear_combination s * frame.first + t * frame.apart

omit [LinearOrder K] [ExactScalar K] in
theorem component_second (frame : Frame d e) (s t : K) :
    component e (s * d.1 + t * e.1, s * d.2 + t * e.2) = t := by
  rw [component]
  linear_combination s * frame.apart + t * frame.second

omit [LinearOrder K] [ExactScalar K] in
/-- The length of a vector does not depend on the frame. -/
theorem length_eq (frame : Frame d e) (v : K × K) :
    v.1 * v.1 + v.2 * v.2 = component d v * component d v + component e v * component e v := by
  obtain ⟨first, mixed, second⟩ := frame.coordinates
  rw [component, component]
  linear_combination -(v.1 * v.1) * first - 2 * v.1 * v.2 * mixed - v.2 * v.2 * second

end Frame

/-- The design matrix, with an abscissa and a one in each row. -/
def designMatrix (x : List K) : Matrix (Fin x.length) (Fin 2) K := Matrix.of fun i => ![x[i], 1]

/-- The Gram matrix of the design matrix. Its eigenvalues are the squares of the singular values. -/
def gram (x : List K) : Matrix (Fin 2) (Fin 2) K := (designMatrix x).transpose * designMatrix x

omit [LinearOrder K] [ExactScalar K] in
/-- The Gram matrix of the design, by the sums of the abscissas. -/
theorem gram_eq (x : List K) :
    gram x = !![(x.map fun a => a * a).sum, x.sum; x.sum, (x.length : K)] := by
  have squares : ∑ i : Fin x.length, x[i.1] * x[i.1] = (x.map fun a => a * a).sum :=
    Fin.sum_univ_fun_getElem x fun a => a * a
  have abscissas : ∑ i : Fin x.length, x[i.1] = x.sum := Fin.sum_univ_getElem x
  ext i j
  rw [gram, Matrix.mul_apply]
  simp only [Matrix.transpose_apply, designMatrix, Matrix.of_apply]
  fin_cases i <;> fin_cases j <;> simp [squares, abscissas]

/-- In a frame whose columns are at right angles a column's squared length is an eigenvalue of the Gram matrix. -/
theorem Frame.eigenvector {d e : K × K} (frame : Frame d e) (columns : inner (along x d) (along x e) = 0) :
    d.1 * (x.map fun a => a * a).sum + d.2 * x.sum = inner (along x d) (along x d) * d.1 ∧
      d.1 * x.sum + d.2 * x.length = inner (along x d) (along x d) * d.2 := by
  obtain ⟨first, mixed, second⟩ := frame.coordinates
  rw [inner_along_along] at columns ⊢
  constructor
  · linear_combination (-(d.1 * (x.map fun a => a * a).sum + d.2 * x.sum)) * first -
      (d.1 * x.sum + d.2 * x.length) * mixed + e.1 * columns
  · linear_combination (-(d.1 * (x.map fun a => a * a).sum + d.2 * x.sum)) * mixed -
      (d.1 * x.sum + d.2 * x.length) * second + e.2 * columns

/-- Columns at right angles have the eigenvalues of the Gram matrix as their squared lengths. -/
theorem Frame.hasEigenvalue_gram {d e : K × K} (frame : Frame d e)
    (columns : inner (along x d) (along x e) = 0) :
    Module.End.HasEigenvalue (Matrix.toLin' (gram x)) (inner (along x d) (along x d)) := by
  obtain ⟨first, second⟩ := frame.eigenvector columns
  apply Module.End.hasEigenvalue_of_hasEigenvector (x := ![d.1, d.2])
  constructor
  · rw [Module.End.mem_eigenspace_iff, Matrix.toLin'_apply, gram_eq]
    ext i
    fin_cases i
    · simpa [mul_comm] using first
    · simpa [mul_comm] using second
  · intro zero
    have left : d.1 = 0 := congrFun zero 0
    have right : d.2 = 0 := congrFun zero 1
    have unit := frame.first
    rw [left, right] at unit
    simp at unit

end

/-! ### The truncated solution -/

section

variable {K : Type} [LinearOrder K] [ScalarField K] [ExactRoots K] {x y : List K} {d e : K × K}

/-- Whether the singular value of a direction, the length of its column, reaches the cutoff. -/
def informs (x : List K) (d : K × K) : Bool :=
  !Scalar.lt (Scalar.root (inner (along x d) (along x d))) cutoff

/-- The component of a vector in a direction, none where the singular value is taken as zero. -/
def retained (x : List K) (d v : K × K) : K := if informs x d then component d v else 0

/-- The squared residuals of a solution under the design matrix with the singular values below the cutoff taken
    as zero. -/
def truncatedResiduals (x y : List K) (d e v : K × K) : K :=
  squaredResiduals (retained x d v * d.1 + retained x e v * e.1) (retained x d v * d.2 + retained x e v * e.2)
    (x.zip y)

/-- The least-squares solution of smallest length, with the singular values below the cutoff taken as zero. -/
def TruncatedSolution (x y : List K) (solution : K × K) : Prop :=
  ∃ d e, Frame d e ∧ inner (along x d) (along x e) = 0 ∧
    (∀ v, truncatedResiduals x y d e solution ≤ truncatedResiduals x y d e v) ∧
    ∀ v, truncatedResiduals x y d e v ≤ truncatedResiduals x y d e solution →
      solution.1 * solution.1 + solution.2 * solution.2 ≤ v.1 * v.1 + v.2 * v.2

theorem cutoff_pos : (0 : K) < cutoff := by
  rw [cutoff, Scalar.one_eq, ExactScalar.ofNat_eq]
  exact div_pos one_pos (Nat.cast_pos.2 (by decide))

/-! ### The solution by coefficients -/

/-- What is left out has no coefficient; any other column has that of its projection. -/
theorem coefficient_eq (x : List K) (d : K × K) (y : List K) :
    (informs x d = false ∧ coefficient (along x d) y = 0) ∨
      (informs x d = true ∧ 0 < inner (along x d) (along x d) ∧
        coefficient (along x d) y * inner (along x d) (along x d) = inner (along x d) y) := by
  rw [coefficient, informs]
  generalize size : inner (along x d) (along x d) = squaredLength
  have nonneg : 0 ≤ squaredLength := size ▸ inner_self_nonneg (along x d)
  cases short : Scalar.lt (Scalar.root squaredLength) cutoff with
  | true => exact .inl ⟨rfl, Scalar.zero_eq⟩
  | false =>
    rw [ExactScalar.lt_eq] at short
    have root : 0 < Scalar.root squaredLength := cutoff_pos.trans_le (not_lt.1 (of_decide_eq_false short))
    have positive : 0 < squaredLength := by
      rw [← ExactRoots.root_mul_self squaredLength nonneg]
      exact mul_pos root root
    exact .inr ⟨rfl, positive, div_mul_cancel₀ _ positive.ne'⟩

/-- What a direction adds to the squared residuals is least at the coefficient of its column. -/
theorem retained_quadratic (x y : List K) (d v : K × K) :
    retained x d v * retained x d v * inner (along x d) (along x d) -
        2 * retained x d v * inner (along x d) y =
      coefficient (along x d) y * coefficient (along x d) y * inner (along x d) (along x d) -
        2 * coefficient (along x d) y * inner (along x d) y +
        inner (along x d) (along x d) * (retained x d v - coefficient (along x d) y) ^ 2 := by
  rw [retained]
  rcases coefficient_eq x d y with ⟨short, none⟩ | ⟨long, -, projection⟩
  · rw [if_neg (Bool.eq_false_iff.1 short), none]
    ring
  · rw [if_pos long, ← projection]
    ring

/-- A component is at least as large as the coefficient where only the coefficient leaves as little. -/
theorem coefficient_mul_self_le {v : K × K}
    (least : inner (along x d) (along x d) * (retained x d v - coefficient (along x d) y) ^ 2 = 0) :
    coefficient (along x d) y * coefficient (along x d) y ≤ component d v * component d v := by
  rw [retained] at least
  rcases coefficient_eq x d y with ⟨-, none⟩ | ⟨long, positive, -⟩
  · rw [none, mul_zero]
    exact mul_self_nonneg _
  · rw [if_pos long] at least
    have same := pow_eq_zero_iff two_ne_zero |>.1 ((mul_eq_zero_iff_left positive.ne').1 least)
    rw [sub_eq_zero.1 same]

/-- The truncated solution has the coefficient of each column as its component. -/
theorem retained_eq_coefficient {v : K × K} (same : component d v = coefficient (along x d) y) :
    retained x d v = coefficient (along x d) y := by
  rw [retained, same]
  rcases coefficient_eq x d y with ⟨short, none⟩ | ⟨long, -, -⟩
  · rw [if_neg (Bool.eq_false_iff.1 short), none]
  · rw [if_pos long]

/-- The coefficients of two columns, taken along their directions. -/
def byCoefficients (x y : List K) (d e : K × K) : K × K :=
  (coefficient (along x d) y * d.1 + coefficient (along x e) y * e.1,
    coefficient (along x d) y * d.2 + coefficient (along x e) y * e.2)

/-- The coefficients of two columns at right angles make the truncated solution. -/
theorem Frame.truncatedSolution (frame : Frame d e) (columns : inner (along x d) (along x e) = 0)
    (paired : x.length = y.length) : TruncatedSolution x y (byCoefficients x y d e) := by
  have first : retained x d (byCoefficients x y d e) = coefficient (along x d) y :=
    retained_eq_coefficient (frame.component_first _ _)
  have second : retained x e (byCoefficients x y d e) = coefficient (along x e) y :=
    retained_eq_coefficient (frame.component_second _ _)
  have expand (v : K × K) : truncatedResiduals x y d e v =
      truncatedResiduals x y d e (byCoefficients x y d e) +
      (inner (along x d) (along x d) * (retained x d v - coefficient (along x d) y) ^ 2 +
        inner (along x e) (along x e) * (retained x e v - coefficient (along x e) y) ^ 2) := by
    rw [truncatedResiduals, truncatedResiduals, squaredResiduals_combination paired,
      squaredResiduals_combination paired, columns, first, second]
    linear_combination retained_quadratic x y d v + retained_quadratic x y e v
  have more (d v : K × K) :
      0 ≤ inner (along x d) (along x d) * (retained x d v - coefficient (along x d) y) ^ 2 :=
    mul_nonneg (inner_self_nonneg _) (sq_nonneg _)
  refine ⟨d, e, frame, columns, ?least, ?shortest⟩
  case least =>
    intro v
    rw [expand v]
    exact le_add_of_nonneg_right (add_nonneg (more d v) (more e v))
  case shortest =>
    intro v least
    rw [expand v] at least
    have none := le_antisymm (nonpos_of_add_le_right least) (add_nonneg (more d v) (more e v))
    obtain ⟨along, across⟩ := (add_eq_zero_iff_of_nonneg (more d v) (more e v)).1 none
    rw [frame.length_eq, frame.length_eq v, byCoefficients, frame.component_first, frame.component_second]
    exact add_le_add (coefficient_mul_self_le along) (coefficient_mul_self_le across)

/-! ### The solution where nothing is left out -/

/-- A column at least as long as the cutoff is retained. -/
theorem informs_of_le (long : cutoff * cutoff ≤ inner (along x d) (along x d)) : informs x d = true := by
  rw [informs, ExactScalar.lt_eq, decide_eq_false (not_lt.2 (Scalar.le_root_of_mul_self_le long))]
  rfl

/-- Where both singular values reach the cutoff no residual changes. -/
theorem Frame.truncatedResiduals_eq (frame : Frame d e) (columns : inner (along x d) (along x e) = 0)
    (singular : ∀ μ, Module.End.HasEigenvalue (Matrix.toLin' (gram x)) μ → cutoff * cutoff ≤ μ) (v : K × K) :
    truncatedResiduals x y d e v = squaredResiduals v.1 v.2 (x.zip y) := by
  have turned : inner (along x e) (along x d) = 0 := by
    rw [inner_along_along] at columns ⊢
    linear_combination columns
  have first : informs x d = true := informs_of_le (singular _ (frame.hasEigenvalue_gram columns))
  have second : informs x e = true := informs_of_le (singular _ (frame.symm.hasEigenvalue_gram turned))
  obtain ⟨abscissa, ordinate⟩ := Prod.mk.inj (frame.resolve v)
  rw [truncatedResiduals, retained, retained, if_pos first, if_pos second, abscissa, ordinate]

/-- Where both singular values reach the cutoff the solution is the fitted line. -/
theorem TruncatedSolution.eq_centredLine {solution : K × K} (truncated : TruncatedSolution x y solution)
    (paired : x.length = y.length) (present : x ≠ []) (spread : 0 < (sums x y).xx)
    (singular : ∀ μ, Module.End.HasEigenvalue (Matrix.toLin' (gram x)) μ → cutoff * cutoff ≤ μ) :
    solution = ((centredLine x y).slope, (centredLine x y).intercept) := by
  obtain ⟨d, e, frame, columns, least, -⟩ := truncated
  by_contra other
  have less := squaredResiduals_lt paired present spread other
  have most := least ((centredLine x y).slope, (centredLine x y).intercept)
  rw [frame.truncatedResiduals_eq columns singular, frame.truncatedResiduals_eq columns singular] at most
  exact absurd less (not_lt.2 most)

end

end CycleCost.Regression
