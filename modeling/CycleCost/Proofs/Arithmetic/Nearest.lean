/-
Module: CycleCost.Proofs.Arithmetic.Nearest
Purpose: Rounding as binary64 does it, of rational numbers and without an upper end of the range. A number keeps 53
  binary digits, or fewer where they would reach below the last place of the floats; what is cut off is less than
  half a unit of the last place, and at exactly half the even neighbour is taken.
Main exports: nearestEven, nearestEven_eq, lastPlace, rounded, abs_rounded_sub_le, rounded_le_rounded,
  rounded_eq_self_of_short
-/
import CycleCost.Proofs.Decimal.Rounding
import Mathlib.Data.Int.Log

namespace CycleCost

open Decimal

variable {r y : ℚ} {t : Int}

/-! ### The nearest whole number -/

/-- The nearest whole number, and of two the even one. -/
def nearestEven (y : ℚ) : Int :=
  if Int.fract y < 1 / 2 then ⌊y⌋
  else if Int.fract y = 1 / 2 then ⌊y⌋ + ⌊y⌋ % 2
  else ⌊y⌋ + 1

/-- The nearest integer is at most one half away, and even where it is exactly one half away. -/
theorem nearestEven_near (y : ℚ) :
    |y - nearestEven y| ≤ 1 / 2 ∧ (|y - nearestEven y| = 1 / 2 → Even (nearestEven y)) := by
  have parts : (⌊y⌋ : ℚ) + Int.fract y = y := Int.floor_add_fract y
  have low := Int.fract_nonneg y
  have high := Int.fract_lt_one y
  rw [nearestEven]
  split
  case isTrue below =>
    have distance : |y - ⌊y⌋| < 1 / 2 := by
      rw [abs_lt]
      constructor <;> linarith
    exact ⟨distance.le, fun edge => absurd edge distance.ne⟩
  case isFalse notBelow =>
    split
    case isTrue half =>
      rcases Int.emod_two_eq ⌊y⌋ with even | odd
      · rw [even, add_zero, abs_le]
        exact ⟨by constructor <;> linarith, fun _ => Int.even_iff.2 even⟩
      · rw [odd, abs_le]
        push_cast
        exact ⟨by constructor <;> linarith, fun _ => by rw [Int.even_iff]; omega⟩
    case isFalse notHalf =>
      have above : 1 / 2 < Int.fract y := lt_of_le_of_ne (not_lt.1 notBelow) (Ne.symm notHalf)
      have distance : |y - ((⌊y⌋ + 1 : Int) : ℚ)| < 1 / 2 := by
        push_cast
        rw [abs_lt]
        constructor <;> linarith
      exact ⟨distance.le, fun edge => absurd edge distance.ne⟩

theorem abs_sub_nearestEven_le (y : ℚ) : |y - nearestEven y| ≤ 1 / 2 := (nearestEven_near y).1

/-- Two whole numbers one apart are not both even. -/
theorem not_lt_of_near {m n : Int} (near : |y - m| ≤ 1 / 2) (near' : |y - n| ≤ 1 / 2)
    (edge : |y - m| = 1 / 2 → Even m) (edge' : |y - n| = 1 / 2 → Even n) : ¬ m < n := by
  intro less
  have apart : (m : ℚ) + 1 ≤ n := by exact_mod_cast less
  rw [abs_le] at near near'
  have half : y - m = 1 / 2 := by linarith
  have half' : y - n = -(1 / 2) := by linarith
  have even : Even m := edge (by rw [half, abs_of_pos one_half_pos])
  have even' : Even n := edge' (by rw [half', abs_neg, abs_of_pos one_half_pos])
  have next : n = m + 1 := by
    have exact : (n : ℚ) = m + 1 := by linarith
    exact_mod_cast exact
  rw [Int.even_iff] at even even'
  omega

/-- No other whole number is as near, or the other one is odd. -/
theorem nearestEven_eq {n : Int} (near : |y - n| ≤ 1 / 2) (edge : |y - n| = 1 / 2 → Even n) :
    nearestEven y = n := by
  obtain ⟨near', edge'⟩ := nearestEven_near y
  have low : ¬ nearestEven y < n := not_lt_of_near near' near edge' edge
  have high : ¬ n < nearestEven y := not_lt_of_near near near' edge edge'
  omega

theorem nearestEven_intCast (n : Int) : nearestEven n = n := by
  apply nearestEven_eq
  · rw [sub_self, abs_zero]
    norm_num
  · rw [sub_self, abs_zero]
    norm_num

theorem nearestEven_neg (y : ℚ) : nearestEven (-y) = -nearestEven y := by
  obtain ⟨near, edge⟩ := nearestEven_near y
  have distance : |-y - ((-nearestEven y : Int) : ℚ)| = |y - nearestEven y| := by
    push_cast
    rw [← neg_add', abs_neg, sub_eq_add_neg]
  apply nearestEven_eq
  · rw [distance]
    exact near
  · rw [distance]
    intro half
    exact (edge half).neg

theorem nearestEven_nonneg (nonneg : 0 ≤ y) : 0 ≤ nearestEven y := by
  have near := abs_sub_nearestEven_le y
  rw [abs_le] at near
  by_contra negative
  have below : (nearestEven y : ℚ) ≤ -1 := by exact_mod_cast Int.le_sub_one_of_lt (not_le.1 negative)
  linarith

theorem nearestEven_le_nearestEven {y' : ℚ} (le : y ≤ y') : nearestEven y ≤ nearestEven y' := by
  have near := abs_le.1 (abs_sub_nearestEven_le y)
  have near' := abs_le.1 (abs_sub_nearestEven_le y')
  by_contra reversed
  have apart : (nearestEven y' : ℚ) + 1 ≤ nearestEven y := by exact_mod_cast not_le.1 reversed
  -- Only numbers halfway between could be that near, and then they are the same number.
  have same : y = y' := by linarith
  exact reversed (same ▸ le_rfl)

/-! ### The nearest number of 53 digits -/

/-- The exponent of the last binary digit that a number keeps: it has 53 of them, fewer at the lower end of the
    range. -/
def lastPlace (r : ℚ) : Int := max (Int.log 2 |r| - 52) (-1074)

/-- The number after rounding, with no upper end of the range. -/
def rounded (r : ℚ) : ℚ := nearestEven (r / 2 ^ lastPlace r) * 2 ^ lastPlace r

theorem rounded_neg (r : ℚ) : rounded (-r) = -rounded r := by
  have place : lastPlace (-r) = lastPlace r := by rw [lastPlace, lastPlace, abs_neg]
  rw [rounded, rounded, place, neg_div, nearestEven_neg]
  push_cast
  exact neg_mul _ _

theorem least_le_lastPlace (r : ℚ) : -1074 ≤ lastPlace r := le_max_right _ _

/-- A number has its last place where its digits are counted from its first one, unless that is too low. -/
theorem lastPlace_eq (positive : 0 < r) (least : -1074 ≤ t) (above : r < 2 ^ (53 + t))
    (below : t = -1074 ∨ 2 ^ (52 + t) ≤ r) : lastPlace r = t := by
  have upper : Int.log 2 r < 53 + t := (Int.lt_zpow_iff_log_lt one_lt_two positive).1 (by exact_mod_cast above)
  rw [lastPlace, abs_of_pos positive]
  rcases below with bottom | reached
  · omega
  · have lower : 52 + t ≤ Int.log 2 r :=
      (Int.zpow_le_iff_le_log one_lt_two positive).1 (by exact_mod_cast reached)
    omega

/-- A positive value has at most 53 places above its last place. -/
theorem lt_lastPlace (positive : 0 < r) : r < 2 ^ (53 + lastPlace r) := by
  have above : r < 2 ^ (Int.log 2 r + 1) := by exact_mod_cast Int.lt_zpow_succ_log_self (R := ℚ) one_lt_two r
  apply above.trans_le (zpow_le_zpow_right₀ one_le_two _)
  rw [lastPlace, abs_of_pos positive]
  omega

/-- A positive value fills its 53 places unless its last place is the least there is. -/
theorem lastPlace_le (positive : 0 < r) : lastPlace r = -1074 ∨ 2 ^ (52 + lastPlace r) ≤ r := by
  have reached : (2 : ℚ) ^ Int.log 2 r ≤ r := by exact_mod_cast Int.zpow_log_le_self (R := ℚ) one_lt_two positive
  rw [lastPlace, abs_of_pos positive]
  rcases le_total (Int.log 2 r - 52) (-1074) with low | high
  · exact .inl (max_eq_right low)
  · right
    rwa [max_eq_left high, add_sub_cancel]

/-- Rounding changes a number by at most half a unit in its last place. -/
theorem abs_rounded_sub_le_place (r : ℚ) : |rounded r - r| ≤ 2 ^ lastPlace r / 2 := by
  have step := two_zpow_pos (lastPlace r)
  have scaled : rounded r - r = -((r / 2 ^ lastPlace r - nearestEven (r / 2 ^ lastPlace r)) * 2 ^ lastPlace r) := by
    rw [sub_mul, div_mul_cancel₀ _ step.ne', rounded]
    ring
  rw [scaled, abs_neg, abs_mul, abs_of_pos step]
  linarith [mul_le_mul_of_nonneg_right (abs_sub_nearestEven_le (r / 2 ^ lastPlace r)) step.le]

/-- The largest share of a number that rounding changes it by. -/
def roundoff : ℚ := 2 ^ (-53 : Int)

/-- Half of the least float above zero. -/
def halfLeast : ℚ := 2 ^ (-1075 : Int)

theorem roundoff_pos : 0 < roundoff := two_zpow_pos _

theorem halfLeast_pos : 0 < halfLeast := two_zpow_pos _

theorem rounded_zero : rounded 0 = 0 := by
  have zero : nearestEven 0 = 0 := nearestEven_intCast 0
  rw [rounded, zero_div, zero, Int.cast_zero, zero_mul]

/-- Rounding changes a number by at most a fixed share of it, or at the lower end of the range by at most half of
    the least float. -/
theorem abs_rounded_sub_le (r : ℚ) : |rounded r - r| ≤ roundoff * |r| ∨
    (lastPlace r = -1074 ∧ |rounded r - r| ≤ halfLeast) := by
  rcases eq_or_ne r 0 with rfl | nonzero
  · left
    rw [rounded_zero, sub_zero, abs_zero, mul_zero]
  · have half := abs_rounded_sub_le_place r
    rw [div_eq_mul_inv, ← zpow_sub_one₀ two_ne_zero] at half
    rcases le_total (Int.log 2 |r| - 52) (-1074) with low | high
    · right
      have place : lastPlace r = -1074 := max_eq_right low
      rw [place] at half
      exact ⟨place, half⟩
    · left
      have place : lastPlace r = Int.log 2 |r| - 52 := max_eq_left high
      have reached : (2 : ℚ) ^ Int.log 2 |r| ≤ |r| := by
        exact_mod_cast Int.zpow_log_le_self (R := ℚ) one_lt_two (abs_pos.2 nonzero)
      have exponent : lastPlace r - 1 = -53 + Int.log 2 |r| := by omega
      rw [exponent, zpow_add₀ two_ne_zero] at half
      exact half.trans (mul_le_mul_of_nonneg_left reached roundoff_pos.le)

/-- The error of a rounding is at most a relative part and half the least float. -/
theorem abs_rounded_sub_le_add (r : ℚ) : |rounded r - r| ≤ roundoff * |r| + halfLeast := by
  have share := mul_nonneg roundoff_pos.le (abs_nonneg r)
  rcases abs_rounded_sub_le r with close | ⟨-, close⟩
  · exact close.trans (le_add_of_nonneg_right halfLeast_pos.le)
  · exact close.trans (le_add_of_nonneg_left share)

theorem rounded_nonneg (nonneg : 0 ≤ r) : 0 ≤ rounded r := by
  have step := two_zpow_pos (lastPlace r)
  have whole : (0 : ℚ) ≤ nearestEven (r / 2 ^ lastPlace r) :=
    Int.cast_nonneg (nearestEven_nonneg (div_nonneg nonneg step.le))
  exact mul_nonneg whole step.le

theorem lastPlace_le_lastPlace (positive : 0 < r) (le : r ≤ y) : lastPlace r ≤ lastPlace y := by
  have log : Int.log 2 r ≤ Int.log 2 y := Int.log_mono_right positive le
  rw [lastPlace, lastPlace, abs_of_pos positive, abs_of_pos (positive.trans_le le)]
  omega

/-- Rounding preserves the order of positive values. -/
theorem rounded_le_rounded_of_pos (positive : 0 < r) (le : r ≤ y) : rounded r ≤ rounded y := by
  have step := two_zpow_pos (lastPlace r)
  rcases (lastPlace_le_lastPlace positive le).eq_or_lt with same | less
  · rw [rounded, rounded, ← same]
    have whole := nearestEven_le_nearestEven (div_le_div_of_nonneg_right le step.le)
    exact mul_le_mul_of_nonneg_right (Int.cast_le.2 whole) step.le
  · -- A power of two lies between them: the first has all its digits below it, the second reaches it.
    have least := least_le_lastPlace r
    have reached := (lastPlace_le (positive.trans_le le)).resolve_left (by omega)
    have low : nearestEven (r / 2 ^ lastPlace r) ≤ 2 ^ 53 := by
      have bound : r / 2 ^ lastPlace r ≤ ((2 ^ 53 : Int) : ℚ) := by
        rw [div_le_iff₀ step]
        have above := (lt_lastPlace positive).le
        rw [zpow_add₀ two_ne_zero] at above
        exact_mod_cast above
      exact (nearestEven_le_nearestEven bound).trans_eq (nearestEven_intCast _)
    have high : 2 ^ 52 ≤ nearestEven (y / 2 ^ lastPlace y) := by
      have bound : ((2 ^ 52 : Int) : ℚ) ≤ y / 2 ^ lastPlace y := by
        rw [le_div_iff₀ (two_zpow_pos _)]
        rw [zpow_add₀ two_ne_zero] at reached
        exact_mod_cast reached
      exact (nearestEven_intCast _).symm.trans_le (nearestEven_le_nearestEven bound)
    calc rounded r ≤ (2 ^ 53 : Int) * 2 ^ lastPlace r := mul_le_mul_of_nonneg_right (Int.cast_le.2 low) step.le
      _ = (2 ^ 52 : Int) * 2 ^ (1 + lastPlace r) := by
          rw [zpow_one_add₀ two_ne_zero]
          push_cast
          ring
      _ ≤ (2 ^ 52 : Int) * 2 ^ lastPlace y :=
          mul_le_mul_of_nonneg_left (zpow_le_zpow_right₀ one_le_two (by omega)) (by positivity)
      _ ≤ rounded y := mul_le_mul_of_nonneg_right (Int.cast_le.2 high) (two_zpow_pos _).le

/-- Rounding keeps the order. -/
theorem rounded_le_rounded (le : r ≤ y) : rounded r ≤ rounded y := by
  rcases lt_or_ge 0 r with positive | nonpos
  · exact rounded_le_rounded_of_pos positive le
  rcases le_or_gt 0 y with nonneg | negative
  · have below := rounded_nonneg (neg_nonneg.2 nonpos)
    rw [rounded_neg, neg_nonneg] at below
    exact below.trans (rounded_nonneg nonneg)
  · have reversed := rounded_le_rounded_of_pos (neg_pos.2 negative) (neg_le_neg le)
    rwa [rounded_neg, rounded_neg, neg_le_neg_iff] at reversed

theorem abs_rounded (r : ℚ) : |rounded r| = rounded |r| := by
  rcases le_total 0 r with nonneg | nonpos
  · rw [abs_of_nonneg nonneg, abs_of_nonneg (rounded_nonneg nonneg)]
  · have opposite := rounded_nonneg (neg_nonneg.2 nonpos)
    rw [abs_of_nonpos nonpos, ← abs_neg, ← rounded_neg, abs_of_nonneg opposite]

theorem roundoff_le_one : roundoff ≤ 1 := zpow_le_one_of_nonpos₀ one_le_two (by decide)

theorem halfLeast_le_one : halfLeast ≤ 1 := zpow_le_one_of_nonpos₀ one_le_two (by decide)

/-- A coarse bound of the rounded value, for values of any size. -/
theorem rounded_le (nonneg : 0 ≤ r) : rounded r ≤ 2 * r + 1 := by
  have close := (abs_le.1 (abs_rounded_sub_le_add r)).2
  have share : roundoff * r ≤ r := mul_le_of_le_one_left nonneg roundoff_le_one
  rw [abs_of_nonneg nonneg] at close
  linarith [halfLeast_le_one]

/-- A number that has no digits below its last place stays as it is. -/
theorem rounded_eq_self {n : Int} (whole : r = n * 2 ^ lastPlace r) : rounded r = r := by
  have scaled : r / 2 ^ lastPlace r = n := by
    rw [div_eq_iff (two_zpow_pos _).ne']
    exact whole
  rw [rounded, scaled, nearestEven_intCast]
  exact whole.symm

theorem mul_two_zpow_eq_mul_pow (n : Int) {e : Int} (low : t ≤ e) :
    (n : ℚ) * 2 ^ e = (n * 2 ^ (e - t).toNat : Int) * 2 ^ t := by
  push_cast
  rw [mul_assoc, ← zpow_natCast, ← zpow_add₀ two_ne_zero]
  congr 2
  omega

/-- A number of at most 53 binary digits that end at a place of the floats stays as it is. -/
theorem rounded_eq_self_of_short {n e : Int} (short : |n| ≤ 2 ^ 53) (least : -1074 ≤ e) :
    rounded (n * 2 ^ e) = n * 2 ^ e := by
  rcases eq_or_ne n 0 with rfl | nonzero
  · rw [Int.cast_zero, zero_mul, rounded_zero]
  have size : |(n : ℚ) * 2 ^ e| = (|n| : Int) * 2 ^ e := by
    rw [abs_mul, abs_of_pos (two_zpow_pos e), Int.cast_abs]
  have positive : (0 : ℚ) < (|n| : Int) * 2 ^ e :=
    mul_pos (Int.cast_pos.2 (abs_pos.2 nonzero)) (two_zpow_pos e)
  rcases short.lt_or_eq with less | top
  · have above : (|n| : Int) * (2 : ℚ) ^ e < 2 ^ (53 + e) := by
      rw [zpow_add₀ two_ne_zero]
      exact mul_lt_mul_of_pos_right (by exact_mod_cast less) (two_zpow_pos e)
    have log : Int.log 2 ((|n| : Int) * (2 : ℚ) ^ e) < 53 + e :=
      (Int.lt_zpow_iff_log_lt one_lt_two positive).1 (by exact_mod_cast above)
    have place : lastPlace (n * 2 ^ e) ≤ e := by
      rw [lastPlace, size]
      omega
    exact rounded_eq_self (mul_two_zpow_eq_mul_pow n place)
  · have place : lastPlace (n * 2 ^ e) = e + 1 := by
      have exact : (|n| : Int) * (2 : ℚ) ^ e = (2 : Nat) ^ (53 + e) := by
        rw [top, Nat.cast_ofNat, zpow_add₀ two_ne_zero]
        norm_cast
      rw [lastPlace, size, exact, Int.log_zpow one_lt_two]
      omega
    obtain ⟨half, even⟩ : (2 : Int) ∣ n := by
      rw [← dvd_abs, top]
      exact ⟨2 ^ 52, by norm_num⟩
    apply rounded_eq_self (n := half)
    rw [place, even, zpow_add_one₀ two_ne_zero]
    push_cast
    ring

/-- Counts of up to 53 binary digits stay as they are. -/
theorem rounded_natCast {n : Nat} (short : n ≤ 2 ^ 53) : rounded n = n := by
  have short' : |(n : Int)| ≤ 2 ^ 53 := by
    rw [Nat.abs_cast]
    exact_mod_cast short
  have whole := rounded_eq_self_of_short (e := 0) short' (by decide)
  rwa [Int.cast_natCast, zpow_zero, mul_one] at whole

theorem one_le_rounded_natCast {n : Nat} (positive : 0 < n) : 1 ≤ rounded n := by
  rcases le_total n (2 ^ 53) with short | long
  · rw [rounded_natCast short]
    exact_mod_cast positive
  · have close := (abs_le.1 (abs_rounded_sub_le_add n)).1
    have half : roundoff ≤ 1 / 2 := by
      rw [roundoff]
      norm_num
    have large : (4 : ℚ) ≤ n := by exact_mod_cast (show 4 ≤ 2 ^ 53 by decide).trans long
    rw [Nat.abs_cast] at close
    have share := mul_le_mul_of_nonneg_right half (n.cast_nonneg (α := ℚ))
    linarith [halfLeast_le_one]

/-! ### The upper end of the range -/

/-- The first number beyond the range of floats. -/
def rangeEnd : ℚ := 2 ^ (1024 : Int)

/-- The largest float. -/
def largest : ℚ := (2 ^ 53 - 1) * 2 ^ (971 : Int)

theorem largest_pos : 0 < largest := mul_pos (by norm_num) (two_zpow_pos _)

/-- The end of the range lies one last place above the largest float. -/
theorem rangeEnd_eq : rangeEnd = largest + 2 ^ (971 : Int) := by
  have parts : rangeEnd = 2 ^ (53 : Int) * 2 ^ (971 : Int) := zpow_add₀ two_ne_zero 53 971
  rw [parts, largest, zpow_ofNat]
  ring

theorem largest_lt_rangeEnd : largest < rangeEnd := by
  rw [rangeEnd_eq]
  exact lt_add_of_pos_right _ (two_zpow_pos _)

/-- Rounding does not lead from a float and beyond the range. -/
theorem abs_rounded_lt_rangeEnd (bounded : |r| ≤ largest) : |rounded r| < rangeEnd := by
  rcases eq_or_ne r 0 with rfl | nonzero
  · rw [rounded_zero, abs_zero]
    exact two_zpow_pos _
  have below : |r| < ((2 : Nat) : ℚ) ^ (1024 : Int) := bounded.trans_lt largest_lt_rangeEnd
  have log : Int.log 2 |r| < 1024 := (Int.lt_zpow_iff_log_lt one_lt_two (abs_pos.2 nonzero)).1 below
  have place : (2 : ℚ) ^ lastPlace r ≤ 2 ^ (971 : Int) := by
    apply zpow_le_zpow_right₀ one_le_two
    rw [lastPlace]
    omega
  have close := abs_rounded_sub_le_place r
  have spread := abs_add_le (rounded r - r) r
  have step := two_zpow_pos 971
  rw [sub_add_cancel] at spread
  rw [rangeEnd_eq]
  generalize (2 : ℚ) ^ (971 : Int) = unit at place step ⊢
  linarith only [close, place, step, bounded, spread]

end CycleCost
