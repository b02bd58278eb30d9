/-
Module: CycleCost.Fault
Purpose: Why a calibration step can fail, one constructor per cause, and the wording of each cause in the one
  function `Fault.message`.
Main exports: Fault, Fault.message, Result
-/
import CycleCost.Decimal.Layout
import CycleCost.Duration

namespace CycleCost

/-- A cause of failure in generating, building, measuring, fitting or reading. -/
inductive Fault where
  /-- No workload template or kernel has this name. -/
  | unknownTemplate (name : String)
  /-- The repetition count is above the largest one that the loop bound can carry. -/
  | countTooLarge (count limit : UInt64)
  /-- A loop that never runs carries no work. -/
  | zeroCount
  /-- The instructions of a whole run do not fit a 64-bit count. -/
  | workOverflow (perIteration count : UInt64)
  /-- An external tool rejected its input; its diagnostics are kept. -/
  | buildFailed (stage diagnostics : String)
  /-- A measured run ended in another way than it has to; a signal leaves no exit code. -/
  | unexpectedExit (expected : Int) (actual : Option Int)
  /-- A process ran longer than its limit. -/
  | timedOut (what : String) (limit : Duration)
  /-- Too few different sizes to separate slope from intercept. -/
  | tooFewPoints (distinct required : Nat)
  /-- A quantity that is not finite, or not positive where it has to be. -/
  | badMetric (what : String) (value : Float)
  /-- The least-squares problem has no solution as posed. -/
  | unsolvable (detail : String)
  /-- The retired instructions of a program could not be read. -/
  | uncounted (program detail : String)
  /-- There is nothing to average. -/
  | noSamples
  /-- A file or process operation failed. -/
  | inputOutput (text : String)
  /-- A JSON text is malformed or is not of the form that is read. -/
  | badJson (text : String)
  /-- A TOML text is malformed or is not of the form that is read. -/
  | badToml (text : String)

/-- The outcome of a step that can fail. -/
abbrev Result (α : Type) := Except Fault α

namespace Fault

/-- An exit code in a message; a run that a signal ended has none. -/
def exitText : Option Int → String
  | some code => s!"Some({code})"
  | none => "None"

/-- The wording of a cause. -/
def message : Fault → String
  | unknownTemplate name => s!"unknown workload template: {name}"
  | countTooLarge count limit => s!"repetition count {count} too large (max {limit})"
  | zeroCount => "repetition count must be at least 1"
  | workOverflow perIteration count => s!"total work overflows u64 ({perIteration} x {count})"
  | buildFailed stage diagnostics => s!"build failed during {stage}: {diagnostics}"
  | unexpectedExit expected actual =>
    s!"unexpected exit code: expected {expected}, got " ++ exitText actual
  | timedOut what limit => s!"{what} timed out after " ++ limit.text
  | tooFewPoints distinct required =>
    s!"insufficient data points: {distinct} distinct, need {required}"
  | badMetric what value => s!"invalid metric {what}: " ++ Decimal.Layout.message.text value
  | unsolvable detail => s!"least-squares solve failed: {detail}"
  | uncounted program detail => s!"instruction count unavailable for {program}: {detail}"
  | noSamples => "no timing samples to reduce"
  | inputOutput text => s!"I/O error: {text}"
  | badJson text => s!"JSON error: {text}"
  | badToml text => s!"TOML parse error: {text}"

/-- Whether the cause is a time limit. -/
def isTimeout : Fault → Bool
  | timedOut _ _ => true
  | _ => false

end Fault

end CycleCost
