/-
Module: CycleCost.Workload.Program
Purpose: A template bound to a repetition count and an operating-system interface. The source is the same for
  every count but for the header comment and the instructions that load the loop bound, so the slope of a
  series over counts is the cost of the body alone.
Main exports: Program, Program.bind, Program.totalWork, Program.source, Program.fingerprint
-/
import CycleCost.Assembly.Immediate
import CycleCost.Digest
import CycleCost.Workload.Abi
import CycleCost.Workload.Template

namespace CycleCost

open Assembly

/-- A template with its repetition count and target. -/
structure Program where
  template : Template
  count : UInt64
  abi : Abi
  deriving DecidableEq, Repr

namespace Program

/-- A program whose loop runs at least once and whose bound can be loaded. -/
def bind (template : Template) (count : UInt64) (abi : Abi) : Result Program :=
  if count = 0 then .error .zeroCount
  else if countLimit < count then .error (.countTooLarge count countLimit)
  else .ok ⟨template, count, abi⟩

/-- Instructions that the loop body executes in a whole run. -/
def totalWork (p : Program) : Result UInt64 :=
  let perIteration := p.template.instructionsPerIteration
  if perIteration.toNat * p.count.toNat < UInt64.size then .ok (perIteration * p.count)
  else .error (.workOverflow perIteration p.count)

def counterRegister : Register := .x 10

/-- The label at the start of the loop body. -/
def loopLabel : String := "loop"

/-- Counting up and going back while the counter is below the bound. -/
def loopControl : List Line :=
  [.instruction (.add counterRegister counterRegister 1),
    .instruction (.compareRegister counterRegister boundRegister),
    .instruction (.branchIf .less loopLabel)]

/-- The lines after the entry label. -/
def lines (p : Program) : Result (List Line) := do
  let bound ← loadCount p.count
  return .instruction (.moveImmediate counterRegister 0) :: bound.map .instruction
    ++ p.template.setup ++ .label loopLabel :: p.template.body ++ loopControl
    ++ p.template.teardown ++ p.abi.exitSequence 0

/-- The lines before the entry label: what the program is, its entry symbol and its alignment. -/
def header (p : Program) : String :=
  s!"// {p.template.name} calibration workload: {p.count} iterations\n"
    ++ s!".global {p.abi.entrySymbol}\n" ++ ".align 4\n" ++ "\n"

/-- The assembler source. -/
def source (p : Program) : Result String := do
  let lines ← p.lines
  return p.header ++ (Line.label p.abi.entrySymbol).text ++ String.join (lines.map Line.text)

/-- The digest of the source. -/
def fingerprint (hash : Digest.Hash) (p : Program) : Result String := do
  return Digest.hex hash (← p.source)

end Program

end CycleCost
