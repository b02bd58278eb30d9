/-
Module: CycleCost.Proofs.Regression.Optimality
Purpose: Why the line by centred sums is the line of least squares. For any line the squared residuals are the
  residuals of the fitted one, plus the squared difference of the slopes by the spread of the abscissas, plus
  the squared difference at the mean point by the number of points. Both additions vanish for the fitted line
  alone, and the spread is positive because two abscissas differ.
Main exports: Regression.validate_eq_ok_iff, Regression.squaredResiduals_eq, Regression.spread_pos,
  Regression.squaredResiduals_centredLine, Regression.squaredResiduals_eq_add, Regression.determination_eq
-/
import CycleCost.Proofs.Regression.Acceptance
import CycleCost.Proofs.Regression.Delay

namespace CycleCost.Regression

variable {K : Type} [LinearOrder K] [ScalarField K] [ExactScalar K] {x y : List K}

/-- There are too few different values exactly when all values are the same. -/
theorem distinctCount_lt_iff : distinctCount x < minimumDistinct ↔ ∀ u ∈ x, ∀ v ∈ x, u = v := by
  have apart : TellsApart Scalar.eq id x := by
    intro u _ v _
    rw [ExactScalar.eq_eq, decide_eq_true_eq, id, id]
  rw [distinctCount_eq_card_key apart fun _ _ _ _ => ExactScalar.totalLe_iff.1]
  exact card_key_lt_two_iff

/-- Points are accepted when they come in pairs and two abscissas differ. -/
theorem validate_eq_ok_iff :
    validate x y = .ok () ↔ x.length = y.length ∧ ∃ u ∈ x, ∃ v ∈ x, u ≠ v := by
  have differ : (∃ u ∈ x, ∃ v ∈ x, u ≠ v) ↔ ¬ distinctCount x < minimumDistinct := by
    rw [distinctCount_lt_iff]
    push Not
    rfl
  rw [differ, validate, checkFinite_eq_ok, checkFinite_eq_ok]
  by_cases paired : x.length = y.length
  · rw [if_neg (not_not_intro paired)]
    change (if distinctCount x < minimumDistinct then _ else _) = _ ↔ _
    split
    next few =>
      constructor
      · intro accepted
        cases accepted
      · intro known
        exact absurd few known.2
    next enough => exact ⟨fun _ => ⟨paired, enough⟩, fun _ => rfl⟩
  · rw [if_pos paired]
    constructor
    · intro accepted
      cases accepted
    · intro known
      exact absurd known.1 paired

/-! ### Sums over points -/

/-- The centred sums as sums. -/
theorem centredSums_eq (meanX meanY : K) (points : List (K × K)) : centredSums meanX meanY points =
    ⟨(points.map fun p => (p.1 - meanX) ^ 2).sum,
      (points.map fun p => (p.1 - meanX) * (p.2 - meanY)).sum,
      (points.map fun p => (p.2 - meanY) ^ 2).sum⟩ := by
  rw [centredSums_eq_foldl_add, Scalar.zero_eq]
  simp only [List.sum_eq_foldl, sq]

theorem squaredResiduals_eq_sum (slope intercept : K) (points : List (K × K)) :
    squaredResiduals slope intercept points =
      (points.map fun p => (p.2 - (slope * p.1 + intercept)) ^ 2).sum := by
  rw [squaredResiduals, Scalar.sum_eq]
  simp only [Scalar.square, sq]

/-- The squared residuals of a line in coordinates with another origin. -/
theorem sum_residuals_shifted (slope intercept originX originY : K) (points : List (K × K)) :
    (points.map fun p => (p.2 - (slope * p.1 + intercept)) ^ 2).sum =
      (points.map fun p => (p.2 - originY) ^ 2).sum -
      2 * slope * (points.map fun p => (p.1 - originX) * (p.2 - originY)).sum +
      slope ^ 2 * (points.map fun p => (p.1 - originX) ^ 2).sum +
      points.length * (originY - slope * originX - intercept) ^ 2 +
      2 * (originY - slope * originX - intercept) *
        ((points.map fun p => p.2 - originY).sum - slope * (points.map fun p => p.1 - originX).sum) := by
  induction points with
  | nil => simp
  | cons p rest ih =>
    simp only [List.map_cons, List.sum_cons, List.length_cons, Nat.cast_add, Nat.cast_one, ih]
    ring

/-- The deviations from the mean cancel. -/
theorem sum_sub_mean {values : List K} (present : values ≠ []) :
    (values.map fun v => v - Scalar.mean values).sum = 0 := by
  have size : (values.length : K) ≠ 0 := Nat.cast_ne_zero.2 (mt List.length_eq_zero_iff.1 present)
  simp only [sub_eq_add_neg]
  rw [List.sum_map_add, List.map_id', List.map_const', List.sum_replicate, nsmul_eq_mul, Scalar.mean_eq,
    mul_neg, mul_div_cancel₀ _ size, add_neg_cancel]

section

variable {β : Type}

theorem sum_squares_nonneg (f : β → K) (list : List β) : 0 ≤ (list.map fun b => f b ^ 2).sum := by
  apply List.sum_nonneg
  intro square member
  obtain ⟨b, -, rfl⟩ := List.mem_map.1 member
  exact sq_nonneg (f b)

/-- A sum of squares vanishes only with all its terms. -/
theorem sum_squares_eq_zero_iff {f : β → K} {list : List β} :
    (list.map fun b => f b ^ 2).sum = 0 ↔ ∀ b ∈ list, f b = 0 := by
  induction list with
  | nil => simp
  | cons b rest ih =>
    rw [List.map_cons, List.sum_cons, List.forall_mem_cons, ← ih,
      add_eq_zero_iff_of_nonneg (sq_nonneg (f b)) (sum_squares_nonneg f rest), sq_eq_zero_iff]

end

/-- Values that differ are spread around any center. -/
theorem sum_squares_pos {values : List K} {u v : K} (first : u ∈ values) (second : v ∈ values) (differ : u ≠ v)
    (center : K) : 0 < (values.map fun w => (w - center) ^ 2).sum := by
  apply lt_of_le_of_ne (sum_squares_nonneg _ _)
  intro zero
  have all := sum_squares_eq_zero_iff.1 zero.symm
  exact differ ((sub_eq_zero.1 (all u first)).trans (sub_eq_zero.1 (all v second)).symm)

/-! ### The residuals of all lines -/

/-- The sums around the mean point. -/
def sums (x y : List K) : CentredSums K := centredSums (Scalar.mean x) (Scalar.mean y) (x.zip y)

section

variable (paired : x.length = y.length)

include paired

omit [LinearOrder K] [ScalarField K] [ExactScalar K] in
theorem map_abscissas {β : Type} (f : K → β) : (x.zip y).map (fun p => f p.1) = x.map f := by
  have first : (x.zip y).map Prod.fst = x := List.map_fst_zip paired.le
  rw [← congrArg (List.map f) first, List.map_map]
  rfl

omit [LinearOrder K] [ScalarField K] [ExactScalar K] in
theorem map_ordinates {β : Type} (f : K → β) : (x.zip y).map (fun p => f p.2) = y.map f := by
  have second : (x.zip y).map Prod.snd = y := List.map_snd_zip paired.ge
  rw [← congrArg (List.map f) second, List.map_map]
  rfl

/-- The squared residuals of a line, by the sums around the mean point and the distance at which the line
    passes it. -/
theorem squaredResiduals_eq (present : x ≠ []) (slope intercept : K) :
    squaredResiduals slope intercept (x.zip y) =
      (sums x y).yy - 2 * slope * (sums x y).xy + slope ^ 2 * (sums x y).xx +
      x.length * (Scalar.mean y - slope * Scalar.mean x - intercept) ^ 2 := by
  have others : y ≠ [] := by
    rw [← List.length_pos_iff, ← paired]
    exact List.length_pos_iff.2 present
  have size : (x.zip y).length = x.length := by rw [List.length_zip, ← paired, min_self]
  rw [squaredResiduals_eq_sum,
    sum_residuals_shifted slope intercept (Scalar.mean x) (Scalar.mean y),
    map_abscissas paired (· - Scalar.mean x), map_ordinates paired (· - Scalar.mean y), sum_sub_mean present,
    sum_sub_mean others, size, sums, centredSums_eq]
  ring

/-- Abscissas that differ are spread out. -/
theorem spread_pos {u v : K} (first : u ∈ x) (second : v ∈ x) (differ : u ≠ v) : 0 < (sums x y).xx := by
  rw [sums, centredSums_eq]
  dsimp only
  rw [map_abscissas paired fun u => (u - Scalar.mean x) ^ 2]
  exact sum_squares_pos first second differ _

/-- The variation of the ordinates. -/
theorem variation_eq : (sums x y).yy = (y.map fun v => (v - Scalar.mean y) ^ 2).sum := by
  rw [sums, centredSums_eq]
  exact congrArg List.sum (map_ordinates paired fun v => (v - Scalar.mean y) ^ 2)

/-- Ordinates that differ have a variation to explain. -/
theorem variation_pos {u v : K} (first : u ∈ y) (second : v ∈ y) (differ : u ≠ v) : 0 < (sums x y).yy := by
  rw [variation_eq paired]
  exact sum_squares_pos first second differ _

end

/-- What the fitted line leaves of the variation of the ordinates. -/
theorem squaredResiduals_centredLine (paired : x.length = y.length) (present : x ≠ [])
    (spread : 0 < (sums x y).xx) :
    squaredResiduals (centredLine x y).slope (centredLine x y).intercept (x.zip y) =
      (sums x y).yy - (sums x y).xy ^ 2 / (sums x y).xx := by
  have slope : (centredLine x y).slope = (sums x y).xy / (sums x y).xx := rfl
  have intercept : (centredLine x y).intercept =
      Scalar.mean y - (centredLine x y).slope * Scalar.mean x := rfl
  rw [squaredResiduals_eq paired present, intercept, slope]
  field_simp
  ring

/-- The squared residuals of a line are those of the fitted one, and more by how far it is from the fitted one
    in slope and at the mean point. -/
theorem squaredResiduals_eq_add (paired : x.length = y.length) (present : x ≠ [])
    (spread : 0 < (sums x y).xx) (slope intercept : K) :
    squaredResiduals slope intercept (x.zip y) =
      squaredResiduals (centredLine x y).slope (centredLine x y).intercept (x.zip y) +
      ((sums x y).xx * (slope - (centredLine x y).slope) ^ 2 +
        x.length * (Scalar.mean y - slope * Scalar.mean x - intercept) ^ 2) := by
  have fitted : (centredLine x y).slope = (sums x y).xy / (sums x y).xx := rfl
  rw [squaredResiduals_centredLine paired present spread, squaredResiduals_eq paired present, fitted]
  field_simp
  ring

/-- Every other line leaves more. -/
theorem squaredResiduals_lt (paired : x.length = y.length) (present : x ≠ []) (spread : 0 < (sums x y).xx)
    {slope intercept : K}
    (other : (slope, intercept) ≠ ((centredLine x y).slope, (centredLine x y).intercept)) :
    squaredResiduals (centredLine x y).slope (centredLine x y).intercept (x.zip y) <
      squaredResiduals slope intercept (x.zip y) := by
  have size : (0 : K) < x.length := Nat.cast_pos.2 (List.length_pos_iff.2 present)
  rw [squaredResiduals_eq_add paired present spread slope intercept]
  apply lt_add_of_pos_right
  by_cases parallel : slope = (centredLine x y).slope
  · have lower : Scalar.mean y - slope * Scalar.mean x - intercept ≠ 0 := by
      intro meets
      have level : intercept = (centredLine x y).intercept := by
        rw [← sub_eq_zero.1 meets, parallel]
        rfl
      exact other (Prod.ext parallel level)
    have far := mul_pos size (sq_pos_of_ne_zero lower)
    have slopes := mul_nonneg spread.le (sq_nonneg (slope - (centredLine x y).slope))
    exact add_pos_of_nonneg_of_pos slopes far
  · have steeper := mul_pos spread (sq_pos_of_ne_zero (sub_ne_zero.2 parallel))
    have distance := mul_nonneg size.le
      (sq_nonneg (Scalar.mean y - slope * Scalar.mean x - intercept))
    exact add_pos_of_pos_of_nonneg steeper distance

/-! ### The coefficient of determination -/

/-- The check for equal times, in words of their values. -/
theorem constant_eq_true_iff : constant y = true ↔ ∀ u ∈ y, ∀ v ∈ y, u = v := by
  cases y with
  | nil => simp [constant]
  | cons first rest =>
    simp only [constant, List.all_eq_true, ExactScalar.eq_eq, decide_eq_true_eq]
    constructor
    · intro same u one v two
      exact (same u one).trans (same v two).symm
    · intro same u member
      exact same u member first List.mem_cons_self

theorem determination_of_constant {residual total : K} (same : constant y = true) :
    determination y residual total = 0 := by
  rw [determination, same, Bool.true_or, if_pos rfl, Scalar.zero_eq]

/-- A value between zero and one is left as it is. -/
theorem clamp_of_mem {value : K} (low : 0 ≤ value) (high : value ≤ 1) :
    Scalar.clamp Scalar.zero Scalar.one value = value := by
  rw [Scalar.clamp, Scalar.zero_eq, Scalar.one_eq, ExactScalar.lt_eq, ExactScalar.lt_eq,
    decide_eq_false (not_lt.2 low), decide_eq_false (not_lt.2 high), if_neg Bool.false_ne_true,
    if_neg Bool.false_ne_true]

/-- A residual within the total leaves a share that needs no clamping. -/
theorem determination_eq {residual total : K} (varies : constant y = false) (some : 0 < total)
    (low : 0 ≤ residual) (high : residual ≤ total) :
    determination y residual total = 1 - residual / total := by
  have share : residual / total ≤ 1 := (div_le_one some).2 high
  have positive : 0 ≤ residual / total := div_nonneg low some.le
  rw [determination, varies, Bool.false_or, ExactScalar.eq_eq, Scalar.zero_eq, decide_eq_false some.ne',
    if_neg Bool.false_ne_true, Scalar.one_eq, ← Scalar.zero_eq, ← Scalar.one_eq]
  apply clamp_of_mem
  · rw [Scalar.one_eq]
    exact sub_nonneg.2 share
  · rw [Scalar.one_eq]
    exact sub_le_self 1 positive

end CycleCost.Regression
