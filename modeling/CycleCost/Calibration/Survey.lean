/-
Module: CycleCost.Calibration.Survey
Purpose: What the sizes of one benchmark came to, and the record that is fitted from them.
Main exports: Outcome, Survey, Survey.ofOutcomes, Settings.fit, Survey.record
-/
import CycleCost.Report.Record
import CycleCost.Settings

namespace CycleCost

variable {α : Type}

/-- What became of one size of a benchmark. -/
inductive Outcome (α : Type) where
  /-- It was timed; a generated program has the digest of its source. -/
  | measured (repetitions : UInt64) (digest : Option String) (observation : Observation α)
  /-- It was given up. -/
  | skipped (repetitions : UInt64) (reason : Fault)

namespace Outcome

/-- The observation of a timed size. -/
def observation : Outcome α → Option (Observation α)
  | measured _ _ o => some o
  | skipped _ _ => none

/-- A timed size as it is reported. -/
def dataPoint : Outcome α → Option (DataPoint α)
  | measured repetitions digest o => some ⟨o.workUnits, repetitions, o.timeMs, o.deviationMs, digest⟩
  | skipped _ _ => none

/-- A size that was given up as it is reported. -/
def skippedPoint : Outcome α → Option SkippedPoint
  | measured _ _ _ => none
  | skipped repetitions reason => some ⟨repetitions, reason.message⟩

end Outcome

/-- The sizes of one benchmark after all of them have been tried. -/
structure Survey (α : Type) where
  series : Series α
  dataPoints : List (DataPoint α)
  skippedPoints : List SkippedPoint

namespace Survey

/-- The survey of outcomes in the order in which the sizes were tried. -/
def ofOutcomes (outcomes : List (Outcome α)) : Survey α where
  series := Series.ofList (outcomes.filterMap Outcome.observation)
  dataPoints := outcomes.filterMap Outcome.dataPoint
  skippedPoints := outcomes.filterMap Outcome.skippedPoint

end Survey

namespace Settings

/-- The fewest different sizes before a fit; below two no settings go. -/
def requiredPoints (s : Settings α) : Nat := max s.minPoints Regression.minimumDistinct

/-- The fit of a series with enough different sizes, and the metric of its slope. -/
def fit [Scalar α] (s : Settings α) (series : Series α) : Result (Fit α × Metric α) := do
  let distinct := series.distinctWork
  if distinct < s.requiredPoints then throw (.tooFewPoints distinct s.requiredPoints)
  let fit ← s.backend.fitSeries series
  let metric ← Metric.ofSlope fit.slope .milliseconds s.frequencyGhz
  return (fit, metric)

end Settings

/-- What a benchmark is called. -/
structure Title where
  name : String
  description : String

def Survey.record [Scalar α] (survey : Survey α) (s : Settings α) (title : Title)
    (instructionsPerIteration : UInt64) : Result (BenchmarkRecord α) := do
  let (fit, metric) ← s.fit survey.series
  return {
    name := title.name
    description := title.description
    instructionsPerIteration
    latencyNs := metric.latencyNs
    overheadMs := some fit.intercept
    cpi := metric.cycles
    ipc := metric.throughput
    rSquared := fit.rSquared
    frequencyGhz := metric.frequencyGhz
    method := metric.method
    calibrated := metric.method.isCalibrated
    empiricalCpi := none
    dataPoints := survey.dataPoints
    skippedPoints := survey.skippedPoints }

end CycleCost
