/-
Module: CycleCost.Command.Complaint
Purpose: Why a command ends without its result, and the line that says so. The line shows the cause as a value:
  its name, and its parts by theirs.
Main exports: Complaint, Complaint.line
-/
import CycleCost.Fault
import CycleCost.Text.Inspected

namespace CycleCost.Command

/-- Why a command ends without its result. -/
inductive Complaint where
  | fault (cause : Fault)
  /-- The regression backends find different lines. -/
  | disagreement

def withParts (name : String) (parts : List (String × String)) : String :=
  name ++ " \x7b " ++ ", ".intercalate (parts.map fun p => p.1 ++ ": " ++ p.2) ++ " \x7d"

def withPart (name part : String) : String := name ++ "(" ++ part ++ ")"

/-- A cause as a value. -/
def inspectedFault : Fault → String
  | .unknownTemplate name => withParts "UnknownTemplate" [("name", Text.inspected name)]
  | .countTooLarge count limit =>
    withParts "RepetitionCountTooLarge" [("count", toString count), ("max", toString limit)]
  | .zeroCount => "ZeroRepetitions"
  | .workOverflow perIteration count =>
    withParts "WorkOverflow" [("per_iteration", toString perIteration), ("count", toString count)]
  | .buildFailed stage diagnostics =>
    withParts "BuildFailed" [("stage", Text.inspected stage), ("stderr", Text.inspected diagnostics)]
  | .unexpectedExit expected actual =>
    withParts "UnexpectedExitCode" [("expected", toString expected), ("actual", Fault.exitText actual)]
  | .timedOut what limit =>
    withParts "Timeout" [("what", Text.inspected what), ("limit", limit.text)]
  | .tooFewPoints distinct required =>
    withParts "InsufficientDataPoints" [("distinct", toString distinct), ("required", toString required)]
  | .badMetric what value =>
    withParts "InvalidMetric"
      [("what", Text.inspected what), ("value", Decimal.Layout.inspection.text value)]
  | .unsolvable detail => withParts "Solver" [("detail", Text.inspected detail)]
  | .uncounted program detail =>
    withParts "InstructionCount" [("program", Text.inspected program), ("detail", Text.inspected detail)]
  | .noSamples => "NoSamples"
  | .inputOutput text => withPart "Io" (Text.inspected text)
  | .badJson text => withPart "Json" (Text.inspected text)
  | .badToml text => withPart "Toml" (Text.inspected text)

namespace Complaint

def reason : Complaint → String
  | fault cause => inspectedFault cause
  | disagreement => Text.inspected "regression backends disagree"

/-- The line that says why there is no result. -/
def line (c : Complaint) : String :=
  "Error: " ++ withParts "Custom" [("kind", "Other"), ("error", c.reason)]

end Complaint

end CycleCost.Command
