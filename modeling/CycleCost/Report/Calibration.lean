/-
Module: CycleCost.Report.Calibration
Purpose: The reports that outlive a run, and how a newer run is folded into an older report.
Main exports: RunInfo, CalibrationReport, CalibrationReport.merge, AccuracyReport
-/
import CycleCost.Accuracy
import CycleCost.Report.Record

namespace CycleCost

/-- What a run was and when. -/
structure RunInfo where
  schemaVersion : UInt32
  toolVersion : String
  profile : String
  seed : UInt64
  timestamp : String
  revision : Option String
  deriving DecidableEq, Repr

/-- The version of the documents that are written. -/
def schemaVersion : UInt32 := 1

def toolVersion : String := "0.3.0"

/-- How the costs of a report were found. -/
def methodology : String :=
  "Linear regression over repetition counts: time = slope * instructions + overhead. "
    ++ "The slope is the per-instruction cost with process startup and other fixed overhead separated out. "
    ++ "Fixed-size workloads use an analytical CPI."

/-- How cycles follow from a latency. -/
def formula : String := "cpi = latency_ns_per_instruction * reference_frequency_ghz"

/-- The costs of a suite. -/
structure CalibrationReport (α : Type) where
  run : RunInfo
  methodology : String
  formula : String
  frequencyGhz : α
  results : List (BenchmarkRecord α)
  summary : Tally
  failures : List BenchmarkFailure

/-- Whether a run says anything about a benchmark. -/
def mentions {α : Type} (records : List (BenchmarkRecord α)) (failures : List BenchmarkFailure)
    (name : String) : Bool :=
  records.any (·.name == name) || failures.any (·.name == name)

/-- A newer run folded into a report: whatever it says about a benchmark replaces all that was known of it,
    and the summary is counted anew. -/
def CalibrationReport.merge {α : Type} (report : CalibrationReport α)
    (records : List (BenchmarkRecord α)) (failures : List BenchmarkFailure) : CalibrationReport α :=
  let kept := report.results.filter fun r => !mentions records failures r.name
  let keptFailures := report.failures.filter fun f => !mentions records failures f.name
  let results := kept ++ records
  let allFailures := keptFailures ++ failures
  { report with results, failures := allFailures, summary := Tally.of results allFailures }

/-- The errors of a simulator over a suite. -/
structure AccuracyReport (α : Type) where
  run : RunInfo
  frequencyGhz : α
  benchmarks : List (Accuracy.Record α)
  summary : Accuracy.Summary α

/-- The metric that the last record of a name gives. -/
def metricOf {α : Type} (records : List (BenchmarkRecord α)) (name : String) : Option (Metric α) :=
  (records.reverse.find? (·.name == name)).map (·.metric)

end CycleCost
