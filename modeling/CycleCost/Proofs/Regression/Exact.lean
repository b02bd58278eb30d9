/-
Module: CycleCost.Proofs.Regression.Exact
Purpose: The formulas over the rational numbers, where nothing is rounded and every value is finite. There
  different amounts of work are different numbers, so two of them have a line, and every slope has a metric.
Main exports: Regression.distinctCount_of_pairwise, Regression.Backend.exists_fit, Metric.exists_ofSlope
-/
import CycleCost.Proofs.Regression.Line
import CycleCost.Proofs.Regression.Series
import Mathlib.Data.Rat.Floor

namespace CycleCost

/-- The rational numbers. A root is rounded down to a whole number. -/
instance : Scalar ℚ where
  ofNat n := n
  sumStart := 0
  magnitude x := |x|
  root x := Nat.sqrt ⌊x⌋₊
  wholePart x := ⌊x⌋₊
  lt x y := x < y
  eq x y := x = y
  finite _ := true
  totalLe x y := x ≤ y
  shown x := Float.ofInt x.num / Float.ofNat x.den

namespace Regression

/-- Strictly ascending numbers are all different. -/
theorem distinctCount_of_pairwise {xs : List ℚ} (strict : xs.Pairwise (· < ·)) :
    distinctCount xs = xs.length := by
  have sorted : xs.mergeSort Scalar.totalLe = xs :=
    List.mergeSort_of_pairwise (strict.imp fun below => decide_eq_true below.le)
  rw [distinctCount, sorted, dropRepeats_of_pairwise]
  exact strict.imp fun below => decide_eq_false below.ne'

/-- Points with at least two abscissas in strictly ascending order have a line. -/
theorem Backend.exists_fit {b : Backend} {x y : List ℚ} (paired : x.length = y.length)
    (enough : 2 ≤ x.length) (strict : x.Pairwise (· < ·)) : ∃ line, b.fit x y = .ok line := by
  have valid : validate x y = .ok () := by
    have work : ∀ u ∈ x, Scalar.finite u = true := fun _ _ => rfl
    have time : ∀ v ∈ y, Scalar.finite v = true := fun _ _ => rfl
    rw [validate, if_neg (not_not_intro paired), checkFinite_of_finite work, checkFinite_of_finite time]
    exact if_neg (by rw [distinctCount_of_pairwise strict]; exact Nat.not_lt.2 enough)
  obtain ⟨line, fitted⟩ := b.fit_eq x y
  exact ⟨line, by rw [fitted, valid]; rfl⟩

end Regression

/-- Every slope has a metric at a clock that runs. -/
theorem Metric.exists_ofSlope {slope frequencyGhz : ℚ} {unit : TimeUnit} (running : 0 < frequencyGhz) :
    ∃ metric, Metric.ofSlope slope unit frequencyGhz = .ok metric := by
  have clock : Scalar.finitePositive frequencyGhz := by
    change (true && decide (((0 : ℕ) : ℚ) < frequencyGhz)) = true
    rw [Nat.cast_zero, Bool.true_and, decide_eq_true running]
  rw [Metric.ofSlope, checkFrequency, if_pos clock]
  exact ⟨_, rfl⟩

end CycleCost
