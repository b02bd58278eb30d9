/-
Module: CycleCost.Report.Forms
Purpose: The documents of the library, field by field. Every field is read and written through the one line
  that describes it here; its place in the list is its place in the text.
Main exports: BenchmarkRecord.form, CalibrationReport.form, AccuracyReport.form, Predictions.form
-/
import CycleCost.Document.Schema
import CycleCost.Regression.Backend
import CycleCost.Report.Calibration
import CycleCost.Workload.Abi
import CycleCost.Workload.Template

namespace CycleCost

open Document

def Template.form : Form Template := .named Template.all Template.name

def Abi.form : Form Abi := .named Abi.all Abi.name

def TimeUnit.form : Form TimeUnit := .named TimeUnit.all TimeUnit.name

def Method.form : Form Method := .named Method.all Method.name

def Regression.Backend.form : Form Regression.Backend :=
  .named Regression.Backend.all Regression.Backend.name

def Fit.form : Form (Fit Float) :=
  Fields.form <| (Fields.of Fit.mk)
    |>.add (.required "slope" .real (·.slope))
    |>.add (.required "intercept" .real (·.intercept))
    |>.add (.required "r_squared" .real (·.rSquared))
    |>.add (.required "points" .size (·.points))

def Metric.form : Form (Metric Float) :=
  Fields.form <| (Fields.of Metric.mk)
    |>.add (.required "latency_ns" .real (·.latencyNs))
    |>.add (.required "cycles_per_unit" .real (·.cycles))
    |>.add (.optional "units_per_cycle" .real (·.throughput))
    |>.add (.required "reference_frequency_ghz" .real (·.frequencyGhz))
    |>.add (.required "method" Method.form (·.method))

def CrossCheck.form : Form (CrossCheck Float) :=
  Fields.form <| (Fields.of CrossCheck.mk)
    |>.add (.required "empirical_cpi" .real (·.empiricalCpi))
    |>.add (.required "ratio" .real (·.ratio))
    |>.add (.required "agrees" .bool (·.agrees))

def DataPoint.form : Form (DataPoint Float) :=
  Fields.form <| (Fields.of DataPoint.mk)
    |>.add (.required "instructions" .word64 (·.instructions))
    |>.add (.required "repetitions" .word64 (·.repetitions))
    |>.add (.required "time_ms" .real (·.timeMs))
    |>.add (.required "std_ms" .real (·.deviationMs))
    |>.add (.whenPresent "source_sha256" .text (·.sourceDigest))

def SkippedPoint.form : Form SkippedPoint :=
  Fields.form <| (Fields.of SkippedPoint.mk)
    |>.add (.required "repetitions" .word64 (·.repetitions))
    |>.add (.required "reason" .text (·.reason))

def BenchmarkRecord.form : Form (BenchmarkRecord Float) :=
  Fields.form <| (Fields.of BenchmarkRecord.mk)
    |>.add (.required "name" .text (·.name))
    |>.add (.required "description" .text (·.description))
    |>.add (.required "instructions_per_iteration" .word64 (·.instructionsPerIteration))
    |>.add (.required "latency_ns_per_instruction" .real (·.latencyNs))
    |>.add (.optional "overhead_ms" .real (·.overheadMs))
    |>.add (.required "cpi" .real (·.cpi))
    |>.add (.optional "ipc" .real (·.ipc))
    |>.add (.required "r_squared" .real (·.rSquared))
    |>.add (.required "reference_frequency_ghz" .real (·.frequencyGhz))
    |>.add (.required "estimation_method" Method.form (·.method))
    |>.add (.required "calibrated" .bool (·.calibrated))
    |>.add (.whenPresent "empirical_cpi" .real (·.empiricalCpi))
    |>.add (.defaulted "data_points" (.list DataPoint.form) [] (·.dataPoints))
    |>.add (.defaulted "skipped_points" (.list SkippedPoint.form) [] (·.skippedPoints))

def BenchmarkFailure.form : Form BenchmarkFailure :=
  Fields.form <| (Fields.of BenchmarkFailure.mk)
    |>.add (.required "name" .text (·.name))
    |>.add (.required "reason" .text (·.reason))

def Tally.form : Form Tally :=
  Fields.form <| (Fields.of Tally.mk)
    |>.add (.required "calibrated" .size (·.calibrated))
    |>.add (.required "analytical" .size (·.analytical))
    |>.add (.required "failed" .size (·.failed))

def RunInfo.form : Form RunInfo :=
  Fields.form <| (Fields.of RunInfo.mk)
    |>.add (.required "schema_version" .word32 (·.schemaVersion))
    |>.add (.required "tool_version" .text (·.toolVersion))
    |>.add (.required "profile" .text (·.profile))
    |>.add (.required "seed" .word64 (·.seed))
    |>.add (.required "timestamp_utc" .text (·.timestamp))
    |>.add (.optional "git_sha" .text (·.revision))

def CalibrationReport.form : Form (CalibrationReport Float) :=
  Fields.form <| (Fields.of CalibrationReport.mk)
    |>.add (.required "run" RunInfo.form (·.run))
    |>.add (.required "methodology" .text (·.methodology))
    |>.add (.required "formula" .text (·.formula))
    |>.add (.required "reference_frequency_ghz" .real (·.frequencyGhz))
    |>.add (.required "results" (.list BenchmarkRecord.form) (·.results))
    |>.add (.required "summary" Tally.form (·.summary))
    |>.add (.defaulted "failures" (.list BenchmarkFailure.form) [] (·.failures))

namespace Accuracy

def Record.form : Form (Record Float) :=
  Fields.form <| (Fields.of Record.mk)
    |>.add (.required "name" .text (·.name))
    |>.add (.optional "sim_cpi" .real (·.simulatedCpi))
    |>.add (.optional "real_cpi" .real (·.realCpi))
    |>.add (.optional "sim_latency_ns" .real (·.simulatedLatencyNs))
    |>.add (.optional "real_latency_ns" .real (·.realLatencyNs))
    |>.add (.optional "error" .real (·.error))
    |>.add (.required "calibrated" .bool (·.calibrated))
    |>.add (.whenPresent "note" .text (·.note))

def Summary.form : Form (Summary Float) :=
  Fields.form <| (Fields.of Summary.mk)
    |>.add (.required "count" .size (·.count))
    |>.add (.required "undefined" .size (·.undefined))
    |>.add (.required "calibrated_count" .size (·.calibratedCount))
    |>.add (.optional "mean_error" .real (·.meanError))
    |>.add (.optional "max_error" .real (·.maxError))
    |>.add (.optional "min_error" .real (·.minError))

/-- Predictions; a list of fields may end after the name. -/
def Prediction.form : Form (Prediction Float) :=
  Fields.form <| (Fields.of Prediction.mk)
    |>.add (.required "name" .text (·.name))
    |>.add (.defaulted "cpi" (.optional .real) none (·.cpi))
    |>.add (.defaulted "latency_ns" (.optional .real) none (·.latencyNs))
    |>.add (.defaulted "frequency_ghz" (.optional .real) none (·.frequencyGhz))

end Accuracy

/-- The predictions of a simulator. -/
structure Predictions where
  benchmarks : List (Accuracy.Prediction Float)

def Predictions.form : Form Predictions :=
  Fields.form <| (Fields.of Predictions.mk)
    |>.add (.required "benchmarks" (.list Accuracy.Prediction.form) (·.benchmarks))

def AccuracyReport.form : Form (AccuracyReport Float) :=
  Fields.form <| (Fields.of AccuracyReport.mk)
    |>.add (.required "run" RunInfo.form (·.run))
    |>.add (.required "reference_frequency_ghz" .real (·.frequencyGhz))
    |>.add (.required "benchmarks" (.list Accuracy.Record.form) (·.benchmarks))
    |>.add (.required "summary" Accuracy.Summary.form (·.summary))

end CycleCost
