/-
Module: CycleCost.Report.Record
Purpose: What is kept of a calibrated benchmark: its cost, where the cost comes from, the sizes that were
  measured and the sizes that were dropped.
Main exports: DataPoint, SkippedPoint, BenchmarkRecord, BenchmarkFailure, Tally, Tally.of
-/
import CycleCost.Metric

namespace CycleCost

/-- One measured size. -/
structure DataPoint (α : Type) where
  instructions : UInt64
  repetitions : UInt64
  timeMs : α
  deviationMs : α
  /-- The digest of the generated source; an external kernel has none. -/
  sourceDigest : Option String

/-- A size that was dropped, and why. -/
structure SkippedPoint where
  repetitions : UInt64
  reason : String
  deriving DecidableEq, Repr

/-- The cost of one benchmark. -/
structure BenchmarkRecord (α : Type) where
  name : String
  description : String
  instructionsPerIteration : UInt64
  latencyNs : α
  /-- The fixed part of the time; a supplied cost has none. -/
  overheadMs : Option α
  cpi : α
  ipc : Option α
  rSquared : α
  frequencyGhz : α
  method : Method
  calibrated : Bool
  /-- The cost that a coarse timing implies, beside a supplied one. -/
  empiricalCpi : Option α
  dataPoints : List (DataPoint α)
  skippedPoints : List SkippedPoint

def BenchmarkRecord.metric {α : Type} (r : BenchmarkRecord α) : Metric α where
  latencyNs := r.latencyNs
  cycles := r.cpi
  throughput := r.ipc
  frequencyGhz := r.frequencyGhz
  method := r.method

/-- The coefficient of determination that stands in a record without a fit: 0.995. -/
def suppliedRSquared {α : Type} [Scalar α] : α := Scalar.ofNat 995 / Scalar.ofNat 1000

/-- A benchmark without a cost, and why. -/
structure BenchmarkFailure where
  name : String
  reason : String
  deriving DecidableEq, Repr

/-- How many benchmarks came out in each way. -/
structure Tally where
  calibrated : Nat
  analytical : Nat
  failed : Nat
  deriving DecidableEq, Repr

/-- The tally of a run. -/
def Tally.of {α : Type} (records : List (BenchmarkRecord α)) (failures : List BenchmarkFailure) :
    Tally :=
  let calibrated := (records.filter (·.calibrated)).length
  ⟨calibrated, records.length - calibrated, failures.length⟩

end CycleCost
