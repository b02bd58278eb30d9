/-
Module: CycleCost.Proofs.Regression.Line
Purpose: What a fit and a metric can fail with. Points that come in pairs are refused only for a number that
  is not finite or because their abscissas do not differ, whichever way the line is computed.
Main exports: Fault.Arithmetic, Regression.arithmetic_of_validate, Regression.Backend.fit_eq,
  Regression.Backend.arithmetic_of_fit, Metric.arithmetic_of_ofSlope
-/
import CycleCost.Metric
import CycleCost.Regression.Backend

namespace CycleCost

/-- The faults of the arithmetic behind a cost: a number that it cannot use, and too few points. -/
def Fault.Arithmetic : Fault → Prop
  | .badMetric _ _ => True
  | .tooFewPoints _ _ => True
  | _ => False

variable {α : Type} [Scalar α]

namespace Regression

theorem checkFinite_of_finite {values : List α} (finite : ∀ v ∈ values, Scalar.finite v = true)
    (what : String) : checkFinite what values = .ok () := by
  have none : values.find? (fun v => !Scalar.finite v) = none := by
    simpa using finite
  rw [checkFinite, none]

theorem arithmetic_of_checkFinite {what : String} {values : List α} {fault : Fault}
    (failed : checkFinite what values = .error fault) : fault.Arithmetic := by
  rw [checkFinite] at failed
  split at failed
  · cases failed
    trivial
  · cases failed

/-- Paired points are refused only by arithmetic. -/
theorem arithmetic_of_validate {x y : List α} {fault : Fault} (paired : x.length = y.length)
    (failed : validate x y = .error fault) : fault.Arithmetic := by
  rw [validate, if_neg (not_not_intro paired)] at failed
  cases work : checkFinite "work units" x with
  | error reason =>
    rw [work] at failed
    cases failed
    exact arithmetic_of_checkFinite work
  | ok _ =>
    cases time : checkFinite "time" y with
    | error reason =>
      rw [work, time] at failed
      cases failed
      exact arithmetic_of_checkFinite time
    | ok _ =>
      rw [work, time] at failed
      change (if distinctCount x < minimumDistinct then _ else _) = _ at failed
      split at failed
      · cases failed
        trivial
      · cases failed

namespace Backend

/-- Either way to compute the line only fails where the points are refused. -/
theorem fit_eq (b : Backend) (x y : List α) :
    ∃ line, b.fit x y = (validate x y).map fun _ => line := by
  cases b with
  | closedForm => exact ⟨_, rfl⟩
  | linalg => exact ⟨_, rfl⟩

/-- A fit of as many times as abscissas fails for what the numbers are and for nothing else. -/
theorem arithmetic_of_fit {b : Backend} {x y : List α} {fault : Fault} (paired : x.length = y.length)
    (failed : b.fit x y = .error fault) : fault.Arithmetic := by
  obtain ⟨line, computed⟩ := b.fit_eq x y
  cases checked : validate x y with
  | ok _ =>
    rw [computed, checked] at failed
    cases failed
  | error reason =>
    rw [computed, checked] at failed
    cases failed
    exact arithmetic_of_validate paired checked

end Backend

end Regression

namespace Metric

/-- A slope is refused for its value or the clock's alone. -/
theorem arithmetic_of_ofSlope {slope frequencyGhz : α} {unit : TimeUnit} {fault : Fault}
    (failed : ofSlope slope unit frequencyGhz = .error fault) : fault.Arithmetic := by
  rw [ofSlope, checkFrequency] at failed
  split at failed
  · change (if Scalar.finite slope then _ else _) = _ at failed
    split at failed
    · cases failed
    · cases failed
      trivial
  · cases failed
    trivial

end Metric

end CycleCost
