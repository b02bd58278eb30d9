/-
Module: CycleCost.Accuracy
Purpose: How far a simulator's predictions are from the measured costs. The error divides by the smaller of
  the two values, so twice too much and twice too little score the same.
Main exports: relativeError, Accuracy.Record, Accuracy.compare, Accuracy.Summary, Accuracy.summarize,
  Accuracy.Prediction, Accuracy.evaluate
-/
import CycleCost.Metric

namespace CycleCost

variable {α : Type} [Scalar α]

/-- A cost can be compared when it is finite and above zero. -/
def checkComparable (what : String) (v : α) : Result Unit :=
  if Scalar.finitePositive v then .ok () else .error (.badMetric what (Scalar.shown v))

/-- The distance of two costs by the smaller one. -/
def relativeError (simulated real : α) : Result α := do
  checkComparable "simulated" simulated
  checkComparable "real" real
  return Scalar.magnitude (simulated - real) / Scalar.smaller simulated real

namespace Accuracy

/-- A prediction beside the real cost of one benchmark. -/
structure Record (α : Type) where
  name : String
  simulatedCpi : Option α
  realCpi : Option α
  simulatedLatencyNs : Option α
  realLatencyNs : Option α
  /-- None when the error could not be computed. -/
  error : Option α
  /-- Whether the real cost was measured rather than supplied. -/
  calibrated : Bool
  /-- Why there is no error. -/
  note : Option String

/-- A record without an error, kept so that the summary counts it. -/
def Record.undefined (name : String) (simulated real : Option (Metric α)) (note : String) :
    Record α where
  name
  simulatedCpi := simulated.map (·.cycles)
  realCpi := real.map (·.cycles)
  simulatedLatencyNs := simulated.map (·.latencyNs)
  realLatencyNs := real.map (·.latencyNs)
  error := none
  calibrated := real.any (·.method.isCalibrated)
  note := some note

/-- The comparison of two metrics by their latencies, which do not depend on the clocks that the two sides
    are expressed in. -/
def compare (name : String) (simulated real : Metric α) : Result (Record α) := do
  let error ← relativeError simulated.latencyNs real.latencyNs
  return {
    name
    simulatedCpi := some simulated.cycles
    realCpi := some real.cycles
    simulatedLatencyNs := some simulated.latencyNs
    realLatencyNs := some real.latencyNs
    error := some error
    calibrated := real.method.isCalibrated
    note := none }

/-- The errors of a suite taken together. -/
structure Summary (α : Type) where
  /-- Records with an error. -/
  count : Nat
  /-- Records without one. -/
  undefined : Nat
  /-- Records with an error whose real cost was measured. -/
  calibratedCount : Nat
  meanError : Option α
  maxError : Option α
  minError : Option α

/-- The running figures of a summary. -/
structure Totals (α : Type) where
  count : Nat
  undefined : Nat
  calibratedCount : Nat
  sum : α
  largest : Option α
  smallest : Option α

namespace Totals

/-- The figures of no records. -/
def empty : Totals α := ⟨0, 0, 0, Scalar.zero, none, none⟩

/-- The figures with one more record. -/
def add (t : Totals α) (r : Record α) : Totals α :=
  match r.error with
  | none => { t with undefined := t.undefined + 1 }
  | some e =>
    { count := t.count + 1
      undefined := t.undefined
      calibratedCount := if r.calibrated then t.calibratedCount + 1 else t.calibratedCount
      sum := t.sum + e
      largest := some (t.largest.elim e (Scalar.larger · e))
      smallest := some (t.smallest.elim e (Scalar.smaller · e)) }

end Totals

/-- The errors of a suite taken together; without any error there is no mean and no extreme. -/
def summarize (records : List (Record α)) : Summary α :=
  let t := records.foldl Totals.add Totals.empty
  { count := t.count
    undefined := t.undefined
    calibratedCount := t.calibratedCount
    meanError := if t.count = 0 then none else some (t.sum / Scalar.ofNat t.count)
    maxError := t.largest
    minError := t.smallest }

/-- What a simulator says about one benchmark: cycles per instruction or a latency. -/
structure Prediction (α : Type) where
  name : String
  cpi : Option α
  latencyNs : Option α
  /-- The clock that the cycles refer to; without it, the reference clock of the comparison. -/
  frequencyGhz : Option α

/-- The predicted metric. Cycles take precedence over a latency; when both are missing there is no number to
    report. -/
def Prediction.metric (p : Prediction α) (defaultFrequencyGhz : α) : Result (Metric α) :=
  let frequency := p.frequencyGhz.getD defaultFrequencyGhz
  match p.cpi, p.latencyNs with
  | some cpi, _ => Metric.ofCpi cpi frequency .simulated
  | none, some latency => Metric.ofLatency latency frequency .simulated
  | none, none => .error (.badMetric "simulated CPI (missing)" (0.0 / 0.0))

/-- The record of one prediction. One that cannot be compared is kept with a note. -/
def score (real : String → Option (Metric α)) (defaultFrequencyGhz : α) (p : Prediction α) :
    Record α :=
  match p.metric defaultFrequencyGhz with
  | .error fault => .undefined p.name none (real p.name) fault.message
  | .ok simulated =>
    match real p.name with
    | none => .undefined p.name (some simulated) none "no calibration record"
    | some measured =>
      match compare p.name simulated measured with
      | .ok record => record
      | .error fault => .undefined p.name (some simulated) (some measured) fault.message

/-- The record of every prediction, in order. -/
def evaluate (real : String → Option (Metric α)) (predictions : List (Prediction α))
    (defaultFrequencyGhz : α) : List (Record α) :=
  predictions.map (score real defaultFrequencyGhz)

end Accuracy

end CycleCost
