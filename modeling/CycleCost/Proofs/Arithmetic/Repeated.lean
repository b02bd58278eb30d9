/-
Module: CycleCost.Proofs.Arithmetic.Repeated
Purpose: What comes of adding a float to itself many times and sharing the sum out again. Each addition rounds, so the
  sum drifts off the multiple by a share that grows with the number of terms, or it leaves the range of floats and
  is infinite from there on.
Main exports: accumulated, growth, abs_accumulated_sub_le, valueOf_sum_replicate, unpack_sum_replicate,
  valueOf_mean_replicate, mean_replicate_eq_iff, mean_replicate_of_multiples, mean_replicate_outOfRange
-/
import CycleCost.Proofs.Arithmetic.Rounded

namespace CycleCost

open Decimal Float.Model Float.Model.UnpackedFloat

variable {r : ℚ} {v x : Float} {j k : Nat}

/-! ### The grid of the floats -/

/-- A whole number of units in the last place that a float can have. -/
def OnGrid (r : ℚ) : Prop := ∃ n : Int, r = n * 2 ^ (-1074 : Int)

theorem OnGrid.add {r r' : ℚ} (first : OnGrid r) (second : OnGrid r') : OnGrid (r + r') := by
  obtain ⟨n, rfl⟩ := first
  obtain ⟨n', rfl⟩ := second
  exact ⟨n + n', by rw [Int.cast_add, add_mul]⟩

theorem onGrid_rounded (r : ℚ) : OnGrid (rounded r) :=
  ⟨_, mul_two_zpow_eq_mul_pow _ (least_le_lastPlace r)⟩

/-- On the grid rounding changes a number by at most a share of it. -/
theorem OnGrid.abs_rounded_sub_le (grid : OnGrid r) : |rounded r - r| ≤ roundoff * |r| := by
  rcases CycleCost.abs_rounded_sub_le r with close | ⟨least, -⟩
  · exact close
  · obtain ⟨n, whole⟩ := grid
    rw [← least] at whole
    rw [rounded_eq_self whole, sub_self, abs_zero]
    exact mul_nonneg roundoff_pos.le (abs_nonneg r)

/-! ### Rounded additions -/

/-- The number that equal terms add up to when each addition is rounded. -/
def accumulated (r : ℚ) : Nat → ℚ
  | 0 => 0
  | j + 1 => rounded (accumulated r j + r)

/-- Repeated addition stays among the values that a float takes. -/
theorem onGrid_accumulated (r : ℚ) (j : Nat) : OnGrid (accumulated r j) := by
  cases j with
  | zero => exact ⟨0, by rw [accumulated, Int.cast_zero, zero_mul]⟩
  | succ j => exact onGrid_rounded _

theorem accumulated_neg (r : ℚ) (j : Nat) : accumulated (-r) j = -accumulated r j := by
  induction j with
  | zero => exact neg_zero.symm
  | succ j ih => rw [accumulated, accumulated, ih, ← neg_add, rounded_neg]

theorem accumulated_nonneg (nonneg : 0 ≤ r) (j : Nat) : 0 ≤ accumulated r j := by
  induction j with
  | zero => exact le_rfl
  | succ j ih => exact rounded_nonneg (add_nonneg ih nonneg)

/-- What needs no rounding is an ordinary multiple. -/
theorem accumulated_eq_mul (exact : ∀ i ≤ j, rounded (i * r) = i * r) : accumulated r j = j * r := by
  induction j with
  | zero => rw [accumulated, Nat.cast_zero, zero_mul]
  | succ j ih =>
    rw [accumulated, ih fun i below => exact i (below.trans (Nat.le_succ j)), ← add_one_mul, ← Nat.cast_succ]
    exact exact (j + 1) le_rfl

theorem accumulated_zero (j : Nat) : accumulated 0 j = 0 := by
  have exact : ∀ i ≤ j, rounded (i * 0) = i * 0 := by
    intro i _
    rw [mul_zero, rounded_zero]
  rw [accumulated_eq_mul exact, mul_zero]

theorem one_add_roundoff_pos : 0 < 1 + roundoff := add_pos one_pos roundoff_pos

/-- The largest share by which `j` roundings one after the other change a number. -/
def growth (j : Nat) : ℚ := (1 + roundoff) ^ j - 1

theorem growth_nonneg (j : Nat) : 0 ≤ growth j :=
  sub_nonneg.2 (one_le_pow₀ (le_add_of_nonneg_right roundoff_pos.le))

/-- One more addition passes on the error so far and adds its own. -/
theorem growth_succ (j : Nat) : growth (j + 1) = roundoff + (1 + roundoff) * growth j := by
  rw [growth, growth, pow_succ']
  ring

theorem growth_le_growth (less : j ≤ k) : growth j ≤ growth k :=
  sub_le_sub_right (pow_le_pow_right₀ (le_add_of_nonneg_right roundoff_pos.le) less) 1

/-- A rounding after others: the number it is given is off by `d` already. -/
theorem abs_rounded_add_sub_le (d slack : ℚ) (close : |rounded (d + r) - (d + r)| ≤ roundoff * |d + r| + slack) :
    |rounded (d + r) - r| ≤ roundoff * |r| + (1 + roundoff) * |d| + slack := by
  have spread := mul_le_mul_of_nonneg_left (abs_add_le d r) roundoff_pos.le
  calc |rounded (d + r) - r| = |(rounded (d + r) - (d + r)) + d| := by
        congr 1
        ring
    _ ≤ |rounded (d + r) - (d + r)| + |d| := abs_add_le _ _
    _ ≤ roundoff * (|d| + |r|) + slack + |d| := by linarith only [close, spread]
    _ = roundoff * |r| + (1 + roundoff) * |d| + slack := by ring

/-- The first addition loses nothing, and each further one at most a share of what has come together. -/
theorem abs_accumulated_sub_le (float : rounded r = r) (j : Nat) :
    |accumulated r (j + 1) - (j + 1 : Nat) * r| ≤ growth j * |(j + 1 : Nat) * r| := by
  induction j with
  | zero =>
    rw [accumulated, accumulated, zero_add, zero_add, float, Nat.cast_one, one_mul, sub_self, abs_zero]
    exact mul_nonneg (growth_nonneg 0) (abs_nonneg r)
  | succ j ih =>
    have grid : OnGrid (accumulated r (j + 1) + r) := (onGrid_accumulated r (j + 1)).add (float ▸ onGrid_rounded r)
    have parts : accumulated r (j + 1) + r =
        (accumulated r (j + 1) - (j + 1 : Nat) * r) + (j + 1 + 1 : Nat) * r := by
      push_cast
      ring
    have less : |(j + 1 : Nat) * r| ≤ |(j + 1 + 1 : Nat) * r| := by
      rw [abs_mul, abs_mul, Nat.abs_cast, Nat.abs_cast]
      exact mul_le_mul_of_nonneg_right (Nat.cast_le.2 (Nat.le_succ _)) (abs_nonneg r)
    have before := ih.trans (mul_le_mul_of_nonneg_left less (growth_nonneg j))
    rw [parts] at grid
    rw [accumulated, parts, growth_succ]
    calc |rounded (accumulated r (j + 1) - (j + 1 : Nat) * r + (j + 1 + 1 : Nat) * r) - (j + 1 + 1 : Nat) * r|
        ≤ roundoff * |(j + 1 + 1 : Nat) * r| + (1 + roundoff) * |accumulated r (j + 1) - (j + 1 : Nat) * r| :=
          by simpa using abs_rounded_add_sub_le _ 0 (grid.abs_rounded_sub_le.trans_eq (add_zero _).symm)
      _ ≤ roundoff * |(j + 1 + 1 : Nat) * r| + (1 + roundoff) * (growth j * |(j + 1 + 1 : Nat) * r|) := by
          exact add_le_add_right (mul_le_mul_of_nonneg_left before one_add_roundoff_pos.le) _
      _ = (roundoff + (1 + roundoff) * growth j) * |(j + 1 + 1 : Nat) * r| := by ring

/-- A repeated sum is at most the exact one enlarged by the growth of its error. -/
theorem abs_accumulated_le (float : rounded r = r) (j : Nat) :
    |accumulated r j| ≤ (1 + growth j) * (j * |r|) := by
  cases j with
  | zero =>
    rw [accumulated, abs_zero, Nat.cast_zero, zero_mul, mul_zero]
  | succ j =>
    have close := abs_accumulated_sub_le float j
    have more := mul_le_mul_of_nonneg_right (growth_le_growth (Nat.le_succ j)) (abs_nonneg ((j + 1 : Nat) * r))
    have spread := abs_add_le (accumulated r (j + 1) - (j + 1 : Nat) * r) ((j + 1 : Nat) * r)
    rw [sub_add_cancel] at spread
    rw [abs_mul, Nat.abs_cast] at close more spread
    linarith only [close, more, spread]

/-- A multiple that stays in range with the drift of all its roundings is never out of range on the way. -/
theorem abs_accumulated_lt (float : rounded r = r) (bounded : (1 + growth k) * (k * |r|) < rangeEnd) :
    ∀ j ≤ k, |accumulated r j| < rangeEnd := by
  intro j below
  have fewer : (j : ℚ) * |r| ≤ k * |r| := mul_le_mul_of_nonneg_right (Nat.cast_le.2 below) (abs_nonneg r)
  have share : 1 + growth j ≤ 1 + growth k := add_le_add_right (growth_le_growth below) 1
  have nonneg : 0 ≤ 1 + growth k := add_nonneg zero_le_one (growth_nonneg k)
  calc |accumulated r j| ≤ (1 + growth j) * (j * |r|) := abs_accumulated_le float j
    _ ≤ (1 + growth k) * (k * |r|) := mul_le_mul share fewer (mul_nonneg j.cast_nonneg (abs_nonneg r)) nonneg
    _ < rangeEnd := bounded

/-- The sum of equal floats, shared out again, is off by at most the share of one rounding for each of them. -/
theorem abs_rounded_accumulated_div_sub_le (float : rounded r = r) (positive : 0 < k) :
    |rounded (accumulated r k / k) - r| ≤ growth k * |r| + halfLeast := by
  obtain ⟨j, rfl⟩ := Nat.exists_eq_add_of_le' positive
  have count : (0 : ℚ) < (j + 1 : Nat) := Nat.cast_pos.2 positive
  have before : |accumulated r (j + 1) / (j + 1 : Nat) - r| ≤ growth j * |r| := by
    have scaled : accumulated r (j + 1) / (j + 1 : Nat) - r =
        (accumulated r (j + 1) - (j + 1 : Nat) * r) / (j + 1 : Nat) := by
      field_simp
    have close := abs_accumulated_sub_le float j
    rw [scaled, abs_div, Nat.abs_cast, div_le_iff₀ count]
    rw [abs_mul, Nat.abs_cast] at close
    linarith only [close]
  have last := abs_rounded_sub_le_add (accumulated r (j + 1) / (j + 1 : Nat))
  generalize accumulated r (j + 1) / (j + 1 : Nat) = q at before last ⊢
  have after := abs_rounded_add_sub_le (q - r) halfLeast (by rwa [sub_add_cancel])
  rw [sub_add_cancel] at after
  rw [growth_succ]
  linarith only [after, mul_le_mul_of_nonneg_left before one_add_roundoff_pos.le]

/-! ### Sums of equal floats -/

theorem sum_replicate_succ {α : Type} [Scalar α] (v : α) (j : Nat) :
    Scalar.sum (List.replicate (j + 1) v) = Scalar.sum (List.replicate j v) + v := by
  rw [Scalar.sum, Scalar.sum, List.replicate_succ', List.foldl_append]
  rfl

theorem sum_replicate_zero (v : Float) :
    Scalar.sum (List.replicate 0 v) = .ofModel (.pack (.zero .negative)) := neg_zero_eq

/-- As long as a sum of equal floats stays in range, it is the accumulated number. -/
theorem valueOf_sum_replicate (finite : v.isFinite)
    (inRange : ∀ i ≤ j, |accumulated (valueOf v) i| < rangeEnd) :
    (Scalar.sum (List.replicate j v)).isFinite ∧
      valueOf (Scalar.sum (List.replicate j v)) = accumulated (valueOf v) j := by
  induction j with
  | zero =>
    rw [sum_replicate_zero, isFinite_eq, valueOf, unpack_pack_zero, amount_zero]
    exact ⟨rfl, rfl⟩
  | succ j ih =>
    obtain ⟨before, value⟩ := ih fun i below => inRange i (below.trans (Nat.le_succ j))
    have next := isRounded_add before finite
    rw [value] at next
    rw [sum_replicate_succ]
    exact next.inRange (inRange (j + 1) le_rfl)

/-- What has come together has the sign of the terms. -/
theorem accumulated_add_neg_iff (r : ℚ) (j : Nat) : accumulated r j + r < 0 ↔ r < 0 := by
  constructor
  · intro negative
    by_contra nonneg
    linarith only [negative, not_lt.1 nonneg, accumulated_nonneg (not_lt.1 nonneg) j]
  · intro negative
    have opposite := accumulated_nonneg (neg_nonneg.2 negative.le) j
    rw [accumulated_neg] at opposite
    linarith only [negative, opposite]

/-- A finite float does not bring back what is beyond the range. -/
theorem unpack_add_infinity {s : Sign} (beyond : x.toModel.unpack = .infinity s) (finite : v.isFinite) :
    (x + v).toModel.unpack = .infinity s ∧ (v + x).toModel.unpack = .infinity s := by
  rw [unpack_add, unpack_add, beyond]
  rcases parts_of_isFinite finite with ⟨s', zero⟩ | ⟨s', size, canonical, parts⟩
  · rw [zero]
    exact ⟨unpack_pack_infinity s, unpack_pack_infinity s⟩
  · rw [parts]
    exact ⟨unpack_pack_infinity s, unpack_pack_infinity s⟩

theorem unpack_sub_infinity {s : Sign} (finite : v.isFinite) (beyond : x.toModel.unpack = .infinity s) :
    (v - x).toModel.unpack = .infinity (-s) := by
  rw [unpack_sub, beyond]
  rcases parts_of_isFinite finite with ⟨s', zero⟩ | ⟨s', size, canonical, parts⟩
  · rw [zero]
    exact unpack_pack_infinity (-s)
  · rw [parts]
    exact unpack_pack_infinity (-s)

/-- A sum of equal floats that has left the range stays infinite. -/
theorem unpack_sum_replicate (finite : v.isFinite)
    (outOfRange : ∃ i ≤ j, rangeEnd ≤ |accumulated (valueOf v) i|) :
    (Scalar.sum (List.replicate j v)).toModel.unpack = .infinity (signOf (decide (valueOf v < 0))) := by
  induction j with
  | zero =>
    obtain ⟨i, none, beyond⟩ := outOfRange
    obtain rfl := Nat.le_zero.1 none
    rw [accumulated, abs_zero] at beyond
    exact absurd beyond (not_le.2 (two_zpow_pos _))
  | succ j ih =>
    rw [sum_replicate_succ]
    by_cases before : ∃ i ≤ j, rangeEnd ≤ |accumulated (valueOf v) i|
    · exact (unpack_add_infinity (ih before) finite).1
    · simp only [not_exists, not_and, not_le] at before
      obtain ⟨i, le, beyond⟩ := outOfRange
      obtain rfl : i = j + 1 := by
        by_contra other
        exact absurd beyond (not_le.2 (before i (by omega)))
      obtain ⟨sumFinite, value⟩ := valueOf_sum_replicate finite before
      have next := isRounded_add sumFinite finite
      rw [value] at next
      rw [next.outOfRange beyond, decide_eq_decide.2 (accumulated_add_neg_iff _ j)]

/-! ### Zeros and infinities -/

/-- A zero or an infinity: the sum of some of them is the same again, and so is a share of them. -/
def IsEnd (u : UnpackedFloat) : Prop := ∃ s, u = .zero s ∨ u = .infinity s

theorem div_positive (s : Sign) : s / .positive = s := by
  cases s <;> rfl

section

variable {u : UnpackedFloat} (ends : IsEnd u)

include ends

theorem IsEnd.unpack_pack : (Float.Model.pack u).unpack = u := by
  obtain ⟨s, rfl | rfl⟩ := ends
  · exact unpack_pack_zero s
  · exact unpack_pack_infinity s

/-- Sums start from the zero that leaves even a zero as it is. -/
theorem IsEnd.add_start : UnpackedFloat.add .binary64 (.zero .negative) u = u := by
  obtain ⟨s, rfl | rfl⟩ := ends
  · cases s <;> rfl
  · rfl

theorem IsEnd.add_self : UnpackedFloat.add .binary64 u u = u := by
  obtain ⟨s, rfl | rfl⟩ := ends
  · cases s <;> rfl
  · cases s <;> rfl

theorem IsEnd.div {m : Nat} {e : Int} (positive : 0 < m) :
    UnpackedFloat.div .binary64 u (.finite .positive m e positive) = u := by
  obtain ⟨s, rfl | rfl⟩ := ends
  · rw [UnpackedFloat.div, div_positive]
  · rw [UnpackedFloat.div, div_positive]

end

/-- Zeros and infinities add up to themselves. -/
theorem sum_replicate_end (ends : IsEnd x.toModel.unpack) (j : Nat) :
    Scalar.sum (List.replicate (j + 1) x) = x := by
  apply eq_of_unpack_eq
  induction j with
  | zero =>
    rw [sum_replicate_succ, sum_replicate_zero, unpack_add, unpack_pack_zero, ends.add_start, ends.unpack_pack]
  | succ j ih =>
    rw [sum_replicate_succ, unpack_add, ih, ends.add_self, ends.unpack_pack]

/-- Zeros and infinities stay themselves divided by a count. -/
theorem div_count_end (ends : IsEnd x.toModel.unpack) (positive : 0 < k) (small : k < 2 ^ 64) :
    x / Float.ofNat k = x := by
  obtain ⟨size, canonical, read⟩ := exists_floatOf_ofNat positive small
  apply eq_of_unpack_eq
  rw [read, unpack_div, floatOf, unpack_pack canonical, ends.div, ends.unpack_pack]

theorem isEnd_of_valueOf_eq_zero (finite : v.isFinite) (zero : valueOf v = 0) : IsEnd v.toModel.unpack := by
  rcases parts_of_isFinite finite with ⟨s, parts⟩ | ⟨s, size, canonical, parts⟩
  · exact ⟨s, .inl parts⟩
  · have value : |signed s size.value| = size.value := abs_signed s canonical.value_pos.le
    have none : signed s size.value = 0 := by
      rw [← zero, valueOf, parts, amount_finite]
      rfl
    rw [none, abs_zero] at value
    exact absurd value canonical.value_pos.ne

theorem root_end {x : Float} (ends : x.toModel.unpack = .zero .positive ∨ x.toModel.unpack = .infinity .positive) :
    Scalar.root x = x := by
  have unfolded : (Scalar.root x).toModel.unpack =
      (Float.Model.pack (UnpackedFloat.sqrt .binary64 x.toModel.unpack)).unpack := rfl
  apply eq_of_unpack_eq
  rw [unfolded]
  rcases ends with zero | infinite
  · rw [zero]
    rfl
  · rw [infinite]
    rfl

theorem square_sub_self (finite : v.isFinite) : Scalar.square (v - v) = 0 := by
  have zero : UnpackedFloat.sub .binary64 v.toModel.unpack v.toModel.unpack = .zero .positive := by
    rcases parts_of_isFinite finite with ⟨s, zero⟩ | ⟨s, size, canonical, parts⟩
    · rw [zero]
      cases s <;> rfl
    · rw [parts]
      simp only [UnpackedFloat.sub, Int.sub_self]
      rfl
  rw [sub_eq_pack, zero]
  rfl

theorem square_sub_infinity {center : Float} {s : Sign} (finite : v.isFinite)
    (infinite : center.toModel.unpack = .infinity s) : Scalar.square (v - center) = 1 / 0 := by
  apply eq_of_unpack_eq
  rw [Scalar.square, unpack_mul, unpack_sub_infinity finite infinite]
  cases s <;> rfl

theorem div_zero_of_ne (finite : v.isFinite) (nonzero : valueOf v ≠ 0) :
    (v / 0).toModel.unpack = .infinity (signOf (decide (valueOf v < 0))) := by
  have unfolded : (v / 0).toModel.unpack =
      (Float.Model.pack (UnpackedFloat.div .binary64 v.toModel.unpack (.zero .positive))).unpack := rfl
  rw [unfolded]
  rw [valueOf] at nonzero ⊢
  rcases parts_of_isFinite finite with ⟨s, zero⟩ | ⟨s, size, canonical, parts⟩
  · rw [zero, amount_zero] at nonzero
    exact absurd rfl nonzero
  · have sign : signOf (decide (signed s (size.mantissa * 2 ^ size.exponent) < 0)) = s :=
      signOf_signed s canonical.value_pos
    rw [parts, amount_finite, sign, UnpackedFloat.div, div_positive, unpack_pack_infinity]

/-! ### Means of equal floats -/

/-- Equal samples that are zero or infinite have themselves as their mean. -/
theorem mean_replicate_end (ends : IsEnd x.toModel.unpack) (positive : 0 < k) (small : k < 2 ^ 64) :
    Scalar.mean (List.replicate k x) = x := by
  obtain ⟨j, rfl⟩ := Nat.exists_eq_add_of_le' positive
  rw [Scalar.mean, sum_replicate_end ends, List.length_replicate]
  exact div_count_end ends positive small

/-- In range the mean is the rounded quotient of the accumulated sum and the rounded count. -/
theorem valueOf_mean_replicate (finite : v.isFinite) (positive : 0 < k) (small : k < 2 ^ 64)
    (inRange : ∀ i ≤ k, |accumulated (valueOf v) i| < rangeEnd) :
    (Scalar.mean (List.replicate k v)).isFinite ∧
      valueOf (Scalar.mean (List.replicate k v)) = rounded (accumulated (valueOf v) k / rounded k) := by
  obtain ⟨sumFinite, sum⟩ := valueOf_sum_replicate finite inRange
  obtain ⟨countFinite, count⟩ := valueOf_ofNat small
  have one := one_le_rounded_natCast positive
  have quotient := isRounded_div sumFinite countFinite (by rw [count]; linarith only [one])
  have bounded : |accumulated (valueOf v) k / rounded k| ≤ largest := by
    have total := abs_valueOf_le sumFinite
    rw [sum] at total
    rw [abs_div, abs_of_pos (one_pos.trans_le one)]
    exact (div_le_self (abs_nonneg _) one).trans total
  rw [sum, count] at quotient
  rw [Scalar.mean, List.length_replicate]
  exact quotient.inRange (abs_rounded_lt_rangeEnd bounded)

/-- Equal floats have themselves as their mean exactly when the rounded quotient is the float again. -/
theorem mean_replicate_eq_iff (finite : v.isFinite) (positive : 0 < k) (small : k < 2 ^ 64)
    (inRange : ∀ i ≤ k, |accumulated (valueOf v) i| < rangeEnd) : Scalar.mean (List.replicate k v) = v ↔
      rounded (accumulated (valueOf v) k / rounded k) = valueOf v := by
  obtain ⟨meanFinite, mean⟩ := valueOf_mean_replicate finite positive small inRange
  rw [← mean]
  constructor
  · intro same
    rw [same]
  · intro same
    rcases eq_or_ne (valueOf v) 0 with zero | nonzero
    · exact mean_replicate_end (isEnd_of_valueOf_eq_zero finite zero) positive small
    · exact eq_of_valueOf_eq meanFinite finite nonzero same

/-- Where no addition rounds, equal floats have themselves as their mean. -/
theorem mean_replicate_of_multiples (finite : v.isFinite) (positive : 0 < k) (short : k ≤ 2 ^ 53)
    (multiples : ∀ i ≤ k, ∃ w : Float, w.isFinite ∧ valueOf w = i * valueOf v) :
    Scalar.mean (List.replicate k v) = v := by
  have exact : ∀ i ≤ k, rounded (i * valueOf v) = i * valueOf v := by
    intro i below
    obtain ⟨w, float, value⟩ := multiples i below
    rw [← value]
    exact rounded_valueOf float
  have sums : ∀ i ≤ k, accumulated (valueOf v) i = i * valueOf v := by
    intro i below
    exact accumulated_eq_mul fun h less => exact h (less.trans below)
  have inRange : ∀ i ≤ k, |accumulated (valueOf v) i| < rangeEnd := by
    intro i below
    obtain ⟨w, float, value⟩ := multiples i below
    rw [sums i below, ← value]
    exact abs_valueOf_lt float
  have count : (k : ℚ) ≠ 0 := Nat.cast_ne_zero.2 positive.ne'
  rw [mean_replicate_eq_iff finite positive (by omega) inRange, sums k le_rfl, rounded_natCast short,
    mul_div_cancel_left₀ _ count, rounded_valueOf finite]

/-- Out of range the mean is infinite, with the sign of the terms. -/
theorem mean_replicate_outOfRange (finite : v.isFinite) (positive : 0 < k) (small : k < 2 ^ 64)
    (outOfRange : ∃ i ≤ k, rangeEnd ≤ |accumulated (valueOf v) i|) :
    (Scalar.mean (List.replicate k v)).toModel.unpack = .infinity (signOf (decide (valueOf v < 0))) := by
  have sum := unpack_sum_replicate finite outOfRange
  have shared := div_count_end ⟨_, .inr sum⟩ positive small
  rw [Scalar.mean, List.length_replicate]
  exact (congrArg (fun x : Float => x.toModel.unpack) shared).trans sum

end CycleCost
