/-
Module: CycleCost.Command.Table
Purpose: The tables that people read beside the documents: columns of fixed width, numbers with fixed places.
Main exports: templateTable, calibrationTable, accuracyTable, fitTable
-/
import CycleCost.Report.Calibration
import CycleCost.Text
import CycleCost.Workload.Registry

namespace CycleCost.Command

/-- How a cell is filled up to the width of its column. -/
inductive Alignment where
  | left
  | right

def cell (alignment : Alignment) (width : Nat) (text : String) : String :=
  match alignment with
  | .left => Text.padRight width text
  | .right => Text.padLeft width text

def row (cells : List String) : String := " ".intercalate cells

def line (text : String) : String := text ++ "\n"

/-- What stands in a cell without a value. -/
def absent : String := "-"

def figure (places : Nat) (v : Option Float) : String := v.elim absent (Decimal.fixedText places)

def percent (share : Float) : Float := share * 100.0

/-! ### Templates -/

/-- One template: its name, the instructions of an iteration, and what it does. -/
def templateLine (t : Template) : String :=
  line (row [cell .left 16 t.name, cell .right 3 (toString t.instructionsPerIteration), "insn/iter ",
    t.description])

def templateTable (r : Registry) : String := String.join (r.templates.map templateLine)

/-! ### Calibration -/

def methodLabel : Method → String
  | .linearRegression => "LinearRegression"
  | .analytical => "Analytical"
  | .simulated => "Simulated"

/-- The columns of a calibration. -/
def costRow (name latency cpi ipc fit : String) (method : String) : String :=
  line (row [cell .left 16 name, cell .right 12 latency, cell .right 8 cpi, cell .right 8 ipc,
    cell .right 8 fit] ++ "  " ++ method)

/-- A size that was dropped. -/
def skippedLine (p : SkippedPoint) : String := line s!"  skipped {p.repetitions} repetitions: {p.reason}"

/-- A cost, with the sizes that were dropped under it. -/
def costLines (r : BenchmarkRecord Float) : String :=
  costRow r.name (Decimal.fixedText 4 r.latencyNs) (Decimal.fixedText 3 r.cpi) (figure 3 r.ipc)
      (Decimal.fixedText 4 r.rSquared) (methodLabel r.method)
    ++ String.join (r.skippedPoints.map skippedLine)

def failureLine (f : BenchmarkFailure) : String := line (row [cell .left 16 f.name, "FAILED:", f.reason])

/-- How the benchmarks came out. -/
def tallyLine (t : Tally) : String :=
  line s!"{t.calibrated} calibrated, {t.analytical} analytical, {t.failed} failed"

def calibrationTable (r : CalibrationReport Float) : String :=
  costRow "benchmark" "latency_ns" "cpi" "ipc" "r2" "method"
    ++ String.join (r.results.map costLines)
    ++ String.join (r.failures.map failureLine)
    ++ line "" ++ tallyLine r.summary

/-! ### Accuracy -/

/-- The columns of a comparison. -/
def errorRow (name simulated real error source : String) : String :=
  line (row [cell .left 16 name, cell .right 9 simulated, cell .right 9 real, cell .right 9 error]
    ++ "  " ++ source)

/-- Where a real cost comes from. -/
def sourceLabel (calibrated : Bool) : String := if calibrated then "calibrated" else "analytical"

def errorText (e : Option Float) : String := e.elim "n/a" fun x => Decimal.fixedText 1 (percent x) ++ "%"

/-- A comparison, with its note under it. -/
def errorLines (r : Accuracy.Record Float) : String :=
  errorRow r.name (figure 3 r.simulatedCpi) (figure 3 r.realCpi) (errorText r.error)
      (sourceLabel r.calibrated)
    ++ r.note.elim "" fun note => line ("  " ++ note)

def percentText (share : Option Float) : String := figure 3 (share.map percent) ++ "%"

/-- The errors taken together. -/
def summaryLine (s : Accuracy.Summary Float) : String :=
  let mean := percentText s.meanError
  let most := percentText s.maxError
  let least := percentText s.minError
  line (s!"{s.count} compared ({s.calibratedCount} calibrated), {s.undefined} undefined; "
    ++ s!"mean error {mean}, max {most}, min {least}")

def accuracyTable (r : AccuracyReport Float) : String :=
  errorRow "benchmark" "sim_cpi" "real_cpi" "error" "source"
    ++ String.join (r.benchmarks.map errorLines)
    ++ line "" ++ summaryLine r.summary

/-! ### Fits -/

/-- The columns of fits. -/
def fitRow (name slope intercept fit : String) : String :=
  line (row [cell .left 12 name, cell .right 14 slope, cell .right 12 intercept, cell .right 10 fit])

def fitLine (name : String) (f : Fit Float) : String :=
  fitRow name (Decimal.exponentText 6 f.slope) (Decimal.fixedText 4 f.intercept)
    (Decimal.fixedText 6 f.rSquared)

/-- The lines that backends found, beside the slope that they should have found. -/
def fitTable (fits : List (String × Fit Float)) (expectedSlope : Float) (agree : Bool) : String :=
  fitRow "backend" "slope" "intercept" "r2"
    ++ String.join (fits.map fun f => fitLine f.1 f.2)
    ++ line ("expected slope " ++ Decimal.exponentText 6 expectedSlope ++ s!"; backends agree: {agree}")

end CycleCost.Command
