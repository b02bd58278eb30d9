/-
Module: CycleCost.Measurement
Purpose: Timing a program: a few runs that are thrown away, then the measured ones, reduced to a trimmed mean.
Main exports: Harness, warmUp, timings, measure
-/
import CycleCost.Calibration.Machine
import CycleCost.Regression.Series
import CycleCost.Sample

namespace CycleCost

/-- How a program is timed. -/
structure Harness (α : Type) where
  runs : Nat
  /-- Runs before the measured ones, which are thrown away. -/
  warmups : Nat
  /-- The share of the timings that is dropped at each end. -/
  trimFraction : α
  /-- The limit of each single run. -/
  timeout : Duration

variable {σ α : Type}

/-- Runs whose timing and exit code are not looked at; only a failure to run ends them. -/
def warmUp (run : Act σ Run) : Nat → Act σ Unit
  | 0 => pure ()
  | n + 1 => do
    let _ ← run
    warmUp run n

/-- A run has to end with the expected exit code, if there is one. -/
def checkExit (expected : Option Int) (r : Run) : Result Unit :=
  match expected with
  | none => .ok ()
  | some code => if r.exit = some code then .ok () else .error (.unexpectedExit code r.exit)

/-- The times of `n` runs in milliseconds, put in front of earlier ones; the first run that fails or ends
    wrongly ends them all. -/
def timings [Scalar α] (run : Act σ Run) (expected : Option Int) : Nat → List α → Act σ (List α)
  | 0, earlier => pure earlier
  | n + 1, earlier => do
    let r ← run
    Act.ofResult (checkExit expected r)
    timings run expected n (r.elapsed.milliseconds :: earlier)

/-- The timing of a program that does `workUnits` of work. -/
def measure [Scalar α] (run : Act σ Run) (expected : Option Int) (workUnits : UInt64)
    (h : Harness α) : Act σ (Observation α) := do
  if h.runs = 0 then throw .noSamples
  warmUp run h.warmups
  let readings ← timings run expected h.runs []
  let s ← Act.ofResult (Sample.summarize readings.reverse h.trimFraction)
  return ⟨workUnits, s.mean, s.deviation, s.used⟩

end CycleCost
