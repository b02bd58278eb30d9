/-
Module: CycleCost.Metric
Purpose: What one instruction costs: its latency in nanoseconds, and cycles per instruction at a reference
  clock. A regression is authoritative where it is possible; a workload that cannot be regressed has the
  cost that its author supplies, and its one coarse timing is only compared with that.
Main exports: TimeUnit, Method, Metric, Metric.ofCpi, Metric.ofLatency, Metric.ofSlope, Estimate.analytical,
  CoarseTiming, CrossCheck
-/
import CycleCost.Fault
import CycleCost.Regression.Line

namespace CycleCost

/-- The unit of the times that a slope was fitted on. -/
inductive TimeUnit where
  | seconds
  | milliseconds
  | microseconds
  | nanoseconds
  deriving DecidableEq, Repr

namespace TimeUnit

def all : List TimeUnit := [seconds, milliseconds, microseconds, nanoseconds]

def name : TimeUnit → String
  | seconds => "seconds"
  | milliseconds => "milliseconds"
  | microseconds => "microseconds"
  | nanoseconds => "nanoseconds"

def nanos {α : Type} [Scalar α] : TimeUnit → α
  | seconds => Scalar.ofNat 1000000000
  | milliseconds => Scalar.ofNat 1000000
  | microseconds => Scalar.ofNat 1000
  | nanoseconds => Scalar.ofNat 1

end TimeUnit

/-- Where a metric comes from. -/
inductive Method where
  /-- The slope of a regression over several sizes. -/
  | linearRegression
  /-- A supplied cost of a workload that cannot be regressed. -/
  | analytical
  /-- A prediction of the simulator under test. -/
  | simulated
  deriving DecidableEq, Repr

namespace Method

def all : List Method := [linearRegression, analytical, simulated]

def name : Method → String
  | linearRegression => "linear_regression"
  | analytical => "analytical"
  | simulated => "simulated"

/-- Whether the value was measured rather than supplied. -/
def isCalibrated : Method → Bool
  | linearRegression => true
  | analytical | simulated => false

end Method

/-- The cost of one instruction. -/
structure Metric (α : Type) where
  latencyNs : α
  /-- Cycles per instruction at the reference frequency. -/
  cycles : α
  /-- Instructions per cycle; none when the cycles are zero. -/
  throughput : Option α
  frequencyGhz : α
  method : Method

variable {α : Type} [Scalar α]

/-- A clock has a finite, positive frequency. -/
def checkFrequency (frequencyGhz : α) : Result Unit :=
  if Scalar.finitePositive frequencyGhz then .ok ()
  else .error (.badMetric "reference frequency (GHz)" (Scalar.shown frequencyGhz))

namespace Metric

/-- A metric from latency and cycles that are known to belong together. -/
def ofParts (latencyNs cycles frequencyGhz : α) (method : Method) : Metric α :=
  { latencyNs, cycles, frequencyGhz, method
    throughput := if Scalar.eq cycles Scalar.zero then none else some (Scalar.one / cycles) }

/-- The metric of a known number of cycles per instruction. -/
def ofCpi (cpi frequencyGhz : α) (method : Method) : Result (Metric α) := do
  checkFrequency frequencyGhz
  if Scalar.finite cpi then return ofParts (cpi / frequencyGhz) cpi frequencyGhz method
  else throw (.badMetric "CPI" (Scalar.shown cpi))

/-- The metric of a known latency per instruction. -/
def ofLatency (latencyNs frequencyGhz : α) (method : Method) : Result (Metric α) := do
  checkFrequency frequencyGhz
  if Scalar.finite latencyNs then
    return ofParts latencyNs (latencyNs * frequencyGhz) frequencyGhz method
  else throw (.badMetric "latency (ns)" (Scalar.shown latencyNs))

/-- The metric of a fitted slope. A slope of zero or below is let through: the comparison of predictions
    refuses it later and reports why. -/
def ofSlope (slope : α) (unit : TimeUnit) (frequencyGhz : α) : Result (Metric α) := do
  checkFrequency frequencyGhz
  if Scalar.finite slope then
    let latencyNs := slope * unit.nanos
    return ofParts latencyNs (latencyNs * frequencyGhz) frequencyGhz .linearRegression
  else throw (.badMetric "slope" (Scalar.shown slope))

def throughputDefined (m : Metric α) : Bool := m.throughput.isSome

end Metric

/-- One timing of a whole run of a fixed-size workload. -/
structure CoarseTiming (α : Type) where
  timePerRunMs : α
  instructionsPerRun : UInt64

/-- The cycles per instruction when the whole run time is put down to the instructions. -/
def CoarseTiming.cpi (t : CoarseTiming α) (frequencyGhz : α) : Option α :=
  if t.instructionsPerRun = 0 || !Scalar.finite t.timePerRunMs then none
  else
    let nsPerInstruction :=
      t.timePerRunMs * TimeUnit.milliseconds.nanos / Scalar.ofNat t.instructionsPerRun.toNat
    some (nsPerInstruction * frequencyGhz)

/-- A measured cost beside the supplied one. -/
structure CrossCheck (α : Type) where
  empiricalCpi : α
  /-- The measured cost by the supplied one. -/
  ratio : α
  agrees : Bool

namespace CrossCheck

/-- The factor up to which the two costs agree. -/
def tolerance : α := Scalar.ofNat 2

/-- The comparison of a measured cost with a supplied one. They agree when neither is more than `tolerance`
    times the other. -/
def compare (empiricalCpi expectedCpi : α) : CrossCheck α :=
  let ratio := empiricalCpi / expectedCpi
  ⟨empiricalCpi, ratio, Scalar.le (Scalar.one / tolerance) ratio && Scalar.le ratio tolerance⟩

end CrossCheck

/-- A supplied cost with the comparison that its timing allows. -/
structure Estimate (α : Type) where
  metric : Metric α
  crossCheck : Option (CrossCheck α)

/-- The estimate of a supplied cost. A timing is only compared with it and never changes the value. -/
def Estimate.analytical (expectedCpi frequencyGhz : α) (timing : Option (CoarseTiming α)) :
    Result (Estimate α) := do
  checkFrequency frequencyGhz
  if !Scalar.finitePositive expectedCpi then
    throw (.badMetric "expected CPI" (Scalar.shown expectedCpi))
  let metric ← Metric.ofCpi expectedCpi frequencyGhz .analytical
  return ⟨metric, (timing.bind (·.cpi frequencyGhz)).map (CrossCheck.compare · expectedCpi)⟩

end CycleCost
