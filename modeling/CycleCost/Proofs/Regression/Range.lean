/-
Module: CycleCost.Proofs.Regression.Range
Purpose: How far the line by centred sums stays in the range of floats. That the coordinates are finite does not make
  their squared distances finite, nor keep them from vanishing, so a slope can be infinite and a share of
  explained variation no number. The share is one unless the variation and what the line leaves of it are both
  beyond the range; and coordinates of moderate size and distance keep every step of the computation in range.
Main exports: Fit.Sound, Regression.isShare_determination_iff, Regression.Moderate, Regression.Moderate.sound,
  Regression.sound_line_iff, Series.closedForm_sound
-/
import CycleCost.Proofs.Arithmetic.Bounded
import CycleCost.Proofs.Regression.Abscissas
import CycleCost.Proofs.Regression.Optimality

namespace CycleCost

open Decimal Float.Model Float.Model.UnpackedFloat

/-- A line whose numbers are finite, and of these the coefficient of determination is a share. -/
structure Fit.Sound (line : Fit Float) : Prop where
  slope : line.slope.isFinite
  intercept : line.intercept.isFinite
  share : IsShare line.rSquared

/-! ### The coefficient of determination -/

namespace Regression

section

variable {y : List Float} {residual total : Float}

/-- The coefficient of determination is a share or no number at all. -/
theorem isNaN_or_isShare_determination (y : List Float) (residual total : Float) :
    (determination y residual total).isNaN = true ∨ IsShare (determination y residual total) := by
  rw [determination]
  split
  · exact .inr isShare_zero
  · by_cases number : IsNumber (Scalar.one - residual / total)
    · exact .inr (isShare_clamp number)
    · left
      rw [clamp_of_not_isNumber number]
      exact isNaN_iff.2 number

/-- A total that is not negative compares equal to zero when it is finite and of the value zero. -/
theorem eq_zero_iff (size : AtLeast 0 total) :
    Scalar.eq total Scalar.zero = true ↔ total.isFinite ∧ valueOf total = 0 := by
  cases size with
  | finite finite _ =>
    have equal : Scalar.eq total Scalar.zero = true ↔ valueOf total = valueOf (Scalar.zero : Float) :=
      beq_iff_valueOf_eq finite valueOf_zero.1
    rw [equal, valueOf_zero.2]
    exact (and_iff_right finite).symm
  | infinite beyond =>
    have unfolded : Scalar.eq total Scalar.zero =
        (UnpackedFloat.compare total.toModel.unpack (Scalar.zero : Float).toModel.unpack == some .eq) := rfl
    refine iff_of_false ?_ fun known => not_isFinite_of_infinity beyond known.1
    rw [unfolded, beyond]
    exact Bool.false_ne_true

/-- Of two sizes the coefficient is a share unless both are infinite, or where it is not needed. -/
theorem isShare_determination_iff (left : AtLeast 0 residual) (whole : AtLeast 0 total) :
    IsShare (determination y residual total) ↔
      constant y = true ∨ residual.isFinite = true ∨ total.isFinite = true := by
  rw [determination]
  by_cases same : constant y = true
  · rw [same, Bool.true_or, if_pos rfl]
    exact iff_of_true isShare_zero (.inl rfl)
  rw [Bool.eq_false_iff.2 same, Bool.false_or]
  by_cases zero : Scalar.eq total Scalar.zero = true
  · rw [if_pos zero]
    exact iff_of_true isShare_zero (.inr (.inr ((eq_zero_iff whole).1 zero).1))
  have nonzero : total.isFinite → valueOf total ≠ 0 := fun finite none => zero ((eq_zero_iff whole).2 ⟨finite, none⟩)
  have number : IsNumber (Scalar.one - residual / total) ↔ residual.isFinite = true ∨ total.isFinite = true :=
    (isNumber_sub_iff isShare_one.finite).trans (isNumber_div_iff left whole nonzero)
  rw [if_neg zero, ← number, or_iff_right Bool.false_ne_true]
  refine ⟨fun share => ?_, isShare_clamp⟩
  by_contra none
  rw [clamp_of_not_isNumber none] at share
  exact none (.inl share.finite)

end

/-! ### The sums of the line -/

/-- The variation of the ordinates, as it is computed. -/
def variation (x y : List Float) : Float := (centredSums (Scalar.mean x) (Scalar.mean y) (x.zip y)).yy

/-- What the fitted line leaves of the variation, as it is computed. -/
def unexplained (x y : List Float) : Float :=
  squaredResiduals (centredLine x y).slope (centredLine x y).intercept (x.zip y)

variable {x y : List Float}

/-- A finite mean makes the variation a size. -/
theorem atLeast_variation (time : ∀ v ∈ y, v.isFinite) (mean : (Scalar.mean y).isFinite) :
    AtLeast 0 (variation x y) := by
  rw [variation, centredSums_eq_foldl_add]
  apply atLeast_zero.foldl_add le_rfl rounded_zero
  intro square member
  obtain ⟨p, point, rfl⟩ := List.mem_map.1 member
  have distance := (isNumber_sub_iff (time p.2 (List.of_mem_zip point).2)).2 (.inl mean)
  exact distance.square

/-- A line of finite slope and intercept leaves a size unexplained. -/
theorem atLeast_unexplained (work : ∀ u ∈ x, u.isFinite) (time : ∀ v ∈ y, v.isFinite)
    (slope : (centredLine x y).slope.isFinite) (intercept : (centredLine x y).intercept.isFinite) :
    AtLeast 0 (unexplained x y) := by
  rw [unexplained, squaredResiduals, Scalar.sum]
  apply atLeast_sumStart.foldl_add le_rfl rounded_zero
  intro square member
  obtain ⟨p, point, rfl⟩ := List.mem_map.1 member
  have height : IsNumber ((centredLine x y).slope * p.1 + (centredLine x y).intercept) :=
    (isRounded_mul slope (work p.1 (List.of_mem_zip point).1)).isNumber.add intercept
  exact ((isNumber_sub_iff (time p.2 (List.of_mem_zip point).2)).2 height).square

/-- A line is sound when its intercept is finite and not both sums of squares are beyond the range. -/
theorem sound_centredLine_iff (work : ∀ u ∈ x, u.isFinite) (time : ∀ v ∈ y, v.isFinite) :
    (centredLine x y).Sound ↔ (centredLine x y).intercept.isFinite = true ∧
      (constant y = true ∨ (unexplained x y).isFinite = true ∨ (variation x y).isFinite = true) := by
  have parts (intercept : (centredLine x y).intercept.isFinite) :
      (Scalar.mean y).isFinite ∧ (centredLine x y).slope.isFinite := by
    obtain ⟨mean, rise⟩ := isFinite_of_sub intercept
    exact ⟨mean, (isFinite_of_mul rise).1⟩
  have share (intercept : (centredLine x y).intercept.isFinite) :=
    isShare_determination_iff (y := y) (atLeast_unexplained work time (parts intercept).2 intercept)
      (atLeast_variation (x := x) time (parts intercept).1)
  constructor
  · intro sound
    exact ⟨sound.intercept, (share sound.intercept).1 sound.share⟩
  · rintro ⟨intercept, sums⟩
    exact ⟨(parts intercept).2, intercept, (share intercept).2 sums⟩

/-! ### Moderate coordinates -/

/-- Coordinates of bounded size, of which two abscissas have a distance: up to 2^k points, abscissas up to 2^a,
    ordinates up to 2^b, and a distance of 2^(c + 1), such that neither the squares nor the intercept go beyond the
    range and the square of half the distance is a float. -/
structure Moderate (x y : List Float) (k a b : Nat) (c : Int) : Prop where
  short : x.length ≤ 2 ^ k
  work : ∀ u ∈ x, |valueOf u| ≤ 2 ^ (a : Int)
  time : ∀ v ∈ y, |valueOf v| ≤ 2 ^ (b : Int)
  apart : ∃ u ∈ x, ∃ v ∈ x, 2 ^ (c + 1) ≤ |valueOf u - valueOf v|
  digits : k ≤ 53
  near : -537 ≤ c
  wide : 2 * a + k ≤ 1021
  long : 2 * b + k ≤ 1021
  steep : 2 * a + b + k ≤ 1020 + 2 * c

namespace Moderate

variable {k a b : Nat} {c : Int} (m : Moderate x y k a b c)

include m

theorem le : c ≤ a := by
  obtain ⟨u, first, v, second, apart⟩ := m.apart
  have sizes := add_le_add (m.work u first) (m.work v second)
  rw [two_zpow_add_self] at sizes
  have order := (zpow_le_zpow_iff_right₀ one_lt_two).1 ((apart.trans (abs_sub _ _)).trans sizes)
  omega

/-- Of two abscissas that are apart one is off any center. -/
theorem exists_off (center : ℚ) : ∃ w ∈ x, 2 ^ c ≤ |valueOf w - center| := by
  obtain ⟨u, first, v, second, apart⟩ := m.apart
  by_contra none
  push Not at none
  have near := add_lt_add (none u first) (none v second)
  rw [two_zpow_add_self, abs_sub_comm (valueOf v)] at near
  exact absurd (apart.trans (abs_sub_le _ center _)) near.not_ge

variable (accepted : Accepted x y)

include accepted

theorem within_meanX : Within (2 ^ (a : Int)) (Scalar.mean x) := by
  obtain ⟨u, first, -⟩ := m.apart
  have wide := m.wide
  exact within_mean (List.ne_nil_of_mem first) m.short m.digits (by omega) (by omega) fun u member =>
    ⟨accepted.work u member, m.work u member⟩

theorem within_meanY : Within (2 ^ (b : Int)) (Scalar.mean y) := by
  have long := m.long
  exact within_mean accepted.ne_nil (accepted.paired ▸ m.short) m.digits (by omega) (by omega) fun v member =>
    ⟨accepted.time v member, m.time v member⟩

theorem within_work {p : Float × Float} (point : p ∈ x.zip y) : Within (2 ^ (a + 1 : Int)) (p.1 - Scalar.mean x) := by
  have member := (List.of_mem_zip point).1
  have wide := m.wide
  exact Within.sub_two_zpow (by omega) ⟨accepted.work _ member, m.work _ member⟩ (m.within_meanX accepted)
    (by omega) rfl

theorem within_time {p : Float × Float} (point : p ∈ x.zip y) : Within (2 ^ (b + 1 : Int)) (p.2 - Scalar.mean y) := by
  have member := (List.of_mem_zip point).2
  have long := m.long
  exact Within.sub_two_zpow (by omega) ⟨accepted.time _ member, m.time _ member⟩ (m.within_meanY accepted)
    (by omega) rfl

omit m in
theorem length_points : (x.zip y).length = x.length := by
  rw [List.length_zip, ← accepted.paired, min_self]

/-- A sum over the points grows by the bound of its terms. -/
theorem within_sum {f : Float × Float → Float} {e : Int} (least : -1074 ≤ e) (most : k + e < 1024)
    (terms : ∀ p ∈ x.zip y, Within (2 ^ e) (f p)) :
    Within (x.length * 2 ^ e) (((x.zip y).map f).foldl (· + ·) Scalar.zero) := by
  have size : ((x.zip y).map f).length = x.length := by rw [List.length_map, length_points accepted]
  have each : ∀ v ∈ (x.zip y).map f, Within (2 ^ e) v := by
    intro v member
    obtain ⟨p, point, rfl⟩ := List.mem_map.1 member
    exact terms p point
  have sum := within_foldl_add_two_zpow (size ▸ m.short) m.digits least most each within_zero
  rwa [size] at sum

/-- The spread of the abscissas is finite, and at least the square of half the distance of two of them. -/
theorem spread : Within (x.length * 2 ^ (2 * a + 2 : Int)) (centredSums (Scalar.mean x) (Scalar.mean y) (x.zip y)).xx ∧
    AtLeast (2 ^ (2 * c)) (centredSums (Scalar.mean x) (Scalar.mean y) (x.zip y)).xx := by
  have near := m.near
  have wide := m.wide
  have le := m.le
  rw [centredSums_eq_foldl_add]
  refine ⟨?small, ?large⟩
  case small =>
    apply m.within_sum accepted (by omega) (by omega)
    intro p point
    have distance := m.within_work accepted point
    exact Within.mul_two_zpow (by omega) distance distance (by omega) (by omega)
  case large =>
    obtain ⟨w, member, off⟩ := m.exists_off (valueOf (Scalar.mean x))
    obtain ⟨p, point, rfl⟩ : ∃ p ∈ x.zip y, p.1 = w := by
      rw [← List.map_fst_zip accepted.paired.le] at member
      exact List.mem_map.1 member
    have distance := m.within_work accepted point
    have difference := isRounded_sub (accepted.work p.1 (List.of_mem_zip point).1) (m.within_meanX accepted).finite
    have far := difference.le_abs distance.finite (attained_two_zpow (by omega) (by omega)).float off
    have product : (2 : ℚ) ^ (2 * c) ≤
        valueOf (p.1 - Scalar.mean x) * valueOf (p.1 - Scalar.mean x) := by
      rw [two_mul, zpow_add₀ two_ne_zero, ← abs_mul_abs_self (valueOf _)]
      exact mul_self_le_mul_self (two_zpow_pos c).le far
    have float := (attained_two_zpow (e := 2 * c) (by omega) (by omega)).float
    have square := (isRounded_mul distance.finite distance.finite).atLeast (two_zpow_pos _).le float product
    refine atLeast_foldl_add atLeast_zero ?sizes (List.mem_map_of_mem point) square (two_zpow_pos _).le float
    intro v inside
    obtain ⟨q, other, rfl⟩ := List.mem_map.1 inside
    exact IsNumber.square (.inl (m.within_work accepted other).finite)

/-- The slope is bounded by the ranges of work and times and the least spread of the work. -/
theorem within_slope : Within (x.length * 2 ^ (a + b + 2 - 2 * c : Int)) (centredLine x y).slope := by
  have near := m.near
  have wide := m.wide
  have long := m.long
  have steep := m.steep
  have le := m.le
  obtain ⟨spread, positive⟩ := m.spread accepted
  have covariation : Within (x.length * 2 ^ (a + b + 2 : Int))
      (centredSums (Scalar.mean x) (Scalar.mean y) (x.zip y)).xy := by
    rw [centredSums_eq_foldl_add]
    apply m.within_sum accepted (by omega) (by omega)
    intro p point
    exact Within.mul_two_zpow (by omega) (m.within_work accepted point) (m.within_time accepted point) (by omega)
      (by omega)
  have reached := (positive.reached spread.finite).trans (le_abs_self _)
  have quotient : (x.length * 2 ^ (a + b + 2 : Int) : ℚ) / 2 ^ (2 * c) = x.length * 2 ^ (a + b + 2 - 2 * c : Int) := by
    rw [mul_div_assoc, ← zpow_sub₀ two_ne_zero]
  rw [← quotient]
  apply covariation.div (two_zpow_pos _) spread.finite reached
  rw [quotient]
  exact attained_mul_two_zpow m.short m.digits (by omega) (by omega)

/-- The intercept stays finite. -/
theorem within_intercept : (centredLine x y).intercept.isFinite := by
  have near := m.near
  have wide := m.wide
  have long := m.long
  have steep := m.steep
  have le := m.le
  obtain ⟨u, first, -⟩ := m.apart
  have one : (1 : ℚ) ≤ x.length := by exact_mod_cast List.length_pos_of_mem first
  have rise : Within (x.length * 2 ^ (2 * a + b + 2 - 2 * c : Int)) ((centredLine x y).slope * Scalar.mean x) := by
    have product : x.length * (2 : ℚ) ^ (a + b + 2 - 2 * c : Int) * 2 ^ (a : Int) =
        x.length * 2 ^ (2 * a + b + 2 - 2 * c : Int) := by
      rw [mul_assoc, ← zpow_add₀ two_ne_zero]
      congr 2
      ring
    rw [← product]
    apply (m.within_slope accepted).mul (m.within_meanX accepted)
    rw [product]
    exact attained_mul_two_zpow m.short m.digits (by omega) (by omega)
  have height : Within (x.length * 2 ^ (2 * a + b + 2 - 2 * c : Int)) (Scalar.mean y) := by
    apply (m.within_meanY accepted).mono
    have power : (2 : ℚ) ^ (b : Int) ≤ 2 ^ (2 * a + b + 2 - 2 * c : Int) :=
      zpow_le_zpow_right₀ one_le_two (by omega)
    exact power.trans (le_mul_of_one_le_left (two_zpow_pos _).le one)
  apply (height.sub rise _).finite
  rw [← mul_add, two_zpow_add_self]
  exact attained_mul_two_zpow m.short m.digits (by omega) (by omega)

theorem within_variation : (variation x y).isFinite := by
  have long := m.long
  rw [variation, centredSums_eq_foldl_add]
  refine (m.within_sum accepted (e := 2 * b + 2) (by omega) (by omega) fun p point => ?_).finite
  have distance := m.within_time accepted point
  exact Within.mul_two_zpow (by omega) distance distance (by omega) (by omega)

/-- Moderate coordinates have a sound line. -/
theorem sound : (centredLine x y).Sound :=
  (sound_centredLine_iff accepted.work accepted.time).2
    ⟨m.within_intercept accepted, .inr (.inr (m.within_variation accepted))⟩

end Moderate

/-! ### The documented range -/

theorem Accepted.closedForm_eq {x y : List Float} (accepted : Accepted x y) :
    closedForm x y = .ok (centredLine x y) := by
  rw [Regression.closedForm_eq, accepted.validate_eq]
  rfl

/-- The coefficient of determination of a fitted line is a share or no number. The line is as documented exactly
    when its intercept is finite and, unless the ordinates are constant, one of the two sums of squares is. Moderate
    coordinates always have such a line. -/
theorem sound_line_iff {x y : List Float} (valid : validate x y = .ok ()) :
    ∃ line, closedForm x y = .ok line ∧ (line.rSquared.isNaN = true ∨ IsShare line.rSquared) ∧
      (line.Sound ↔ line.intercept.isFinite = true ∧
        (constant y = true ∨ (unexplained x y).isFinite = true ∨ (variation x y).isFinite = true)) ∧
      ∀ k a b c, Moderate x y k a b c → line.Sound := by
  have accepted := validate_eq_ok_iff_accepted.1 valid
  exact ⟨centredLine x y, accepted.closedForm_eq, isNaN_or_isShare_determination y _ _,
    sound_centredLine_iff accepted.work accepted.time, fun k a b c moderate => moderate.sound accepted⟩

/-- Finite points are accepted if their first two abscissas differ. -/
theorem accepted_of_first_two {u v : Float} {x y : List Float} (paired : (u :: v :: x).length = y.length)
    (work : ∀ w ∈ u :: v :: x, w.isFinite) (time : ∀ t ∈ y, t.isFinite) (differ : valueOf u ≠ valueOf v) :
    Accepted (u :: v :: x) y :=
  ⟨paired, work, time, u, List.mem_cons_self, v, List.mem_cons_of_mem _ List.mem_cons_self, differ⟩

/-- Two timings have a line as documented. -/
theorem sound_line_iff_two : validate [1000, 2000] [10, (15 : Float)] = .ok () ∧
    ∃ line, closedForm [1000, 2000] [10, (15 : Float)] = .ok line ∧ line.Sound := by
  have accepted : Accepted [1000, 2000] [10, (15 : Float)] :=
    accepted_of_first_two (by decide) (by decide +kernel) (by decide +kernel) (by decide +kernel)
  have moderate : Moderate [1000, 2000] [10, (15 : Float)] 1 11 4 8 := by
    have apart : (2 : ℚ) ^ (8 + 1 : Int) ≤ |valueOf 1000 - valueOf 2000| := by decide +kernel
    refine ⟨by decide, by decide +kernel, by decide +kernel, ?_, by decide, by decide, by decide, by decide, by decide⟩
    exact ⟨1000, List.mem_cons_self, 2000, List.mem_cons_of_mem _ List.mem_cons_self, apart⟩
  obtain ⟨line, fitted, -, -, sound⟩ := sound_line_iff accepted.validate_eq
  exact ⟨accepted.validate_eq, line, fitted, sound 1 11 4 8 moderate⟩

/-- Finite coordinates are not enough. The square of a small distance vanishes, and with it the divisor of the slope;
    the squares of large ordinates leave the range, and the quotient of two infinite sums is no number. -/
theorem documented_range_is_left :
    (∃ line, closedForm [0, 1e-200] [0, (1 : Float)] = .ok line ∧
      line.slope.isFinite = false ∧ line.intercept.isFinite = false ∧ line.rSquared.isNaN = true) ∧
    ∃ line, closedForm [1, 2, 3] [1e200, -1e200, (1e200 : Float)] = .ok line ∧
      line.slope.isFinite = true ∧ line.intercept.isFinite = true ∧ line.rSquared.isNaN = true := by
  constructor
  · have accepted : Accepted [0, 1e-200] [0, (1 : Float)] :=
      accepted_of_first_two (by decide) (by decide +kernel) (by decide +kernel) (by decide +kernel)
    refine ⟨centredLine [0, 1e-200] [0, 1], accepted.closedForm_eq, ?_, ?_, ?_⟩ <;> decide +kernel
  · have accepted : Accepted [1, 2, 3] [1e200, -1e200, (1e200 : Float)] :=
      accepted_of_first_two (by decide) (by decide +kernel) (by decide +kernel) (by decide +kernel)
    refine ⟨centredLine [1, 2, 3] [1e200, -1e200, 1e200], accepted.closedForm_eq, ?_, ?_, ?_⟩ <;> decide +kernel

end Regression

/-! ### Series -/

namespace Series

open Regression

theorem valueOf_ofNat_workUnits (work : UInt64) :
    valueOf (Scalar.ofNat work.toNat : Float) = readAs work := (value_ofNat (α := Float) work).2

/-- The counts of a series with times that are not excessive are moderate coordinates: two of them differ by at least
    one, and they have 64 bits. -/
theorem moderate {series : Series Float} (few : series.size ≤ 2 ^ 53)
    (times : ∀ o ∈ series.observations, |valueOf o.timeMs| ≤ 2 ^ (484 : Int))
    (accepted : Accepted series.abscissas series.ordinates) :
    Moderate series.abscissas series.ordinates 53 64 484 (-1) := by
  refine ⟨?short, ?work, ?time, ?apart, by decide, by decide, by decide, by decide, by decide⟩
  case short => rwa [abscissas, List.length_map]
  case work =>
    intro u member
    obtain ⟨o, -, rfl⟩ := List.mem_map.1 member
    rw [valueOf_ofNat_workUnits, abs_of_nonneg (readAs_nonneg _)]
    exact readAs_le _
  case time =>
    intro v member
    obtain ⟨o, observed, rfl⟩ := List.mem_map.1 member
    exact times o observed
  case apart =>
    obtain ⟨u, first, v, second, differ⟩ := accepted.differ
    refine ⟨u, first, v, second, ?_⟩
    obtain ⟨o, -, rfl⟩ := List.mem_map.1 first
    obtain ⟨p, -, rfl⟩ := List.mem_map.1 second
    obtain ⟨m, whole⟩ := exists_int_readAs o.workUnits
    obtain ⟨n, whole'⟩ := exists_int_readAs p.workUnits
    change valueOf (Scalar.ofNat o.workUnits.toNat) ≠ valueOf (Scalar.ofNat p.workUnits.toNat) at differ
    rw [valueOf_ofNat_workUnits, valueOf_ofNat_workUnits, whole, whole'] at differ ⊢
    have one : 1 ≤ |m - n| := Int.one_le_abs (sub_ne_zero.2 fun same => differ (by rw [same]))
    norm_num
    exact_mod_cast one

/-- The line of a series is as documented unless a time is excessive: no counts that a calibration can meet bring it
    out of range. -/
theorem closedForm_sound {series : Series Float} (few : series.size ≤ 2 ^ 53)
    (times : ∀ o ∈ series.observations, |valueOf o.timeMs| ≤ 2 ^ (484 : Int)) {line : Fit Float}
    (fitted : closedForm series.abscissas series.ordinates = .ok line) : line.Sound := by
  rw [closedForm_eq] at fitted
  cases valid : validate series.abscissas series.ordinates with
  | error fault =>
    rw [valid] at fitted
    cases fitted
  | ok checked =>
    rw [valid] at fitted
    cases fitted
    have accepted := validate_eq_ok_iff_accepted.1 valid
    exact (moderate few times accepted).sound accepted

end Series

end CycleCost
