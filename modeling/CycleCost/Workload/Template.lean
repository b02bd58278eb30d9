/-
Module: CycleCost.Workload.Template
Purpose: The workload templates: fixed instruction patterns that stress one feature of a processor each. A
  template has code that runs once before the loop, a loop body, and code that runs once after it.
Main exports: Template, Template.all, Template.named, Template.setup, Template.body, Template.teardown,
  Template.instructionsPerIteration
-/
import CycleCost.Assembly.Instruction
import CycleCost.Fault

namespace CycleCost

open Assembly

/-- A workload template. -/
inductive Template where
  /-- Additions on five independent registers. -/
  | arithmetic
  /-- Additions that each depend on the one before. -/
  | dependency
  /-- Unconditional taken branches. -/
  | branch
  /-- Pairs of a store and a load at a stride of 32 bytes. -/
  | memoryStrided
  /-- Independent loads from a buffer that was filled before. -/
  | loadHeavy
  /-- Independent stores to neighbouring addresses. -/
  | storeHeavy
  /-- Comparisons with conditional branches that alternate between taken and not taken. -/
  | branchHeavy
  deriving DecidableEq, Repr

/-- Two texts are equal up to the case of ASCII letters. -/
def equalIgnoringCase (a b : String) : Bool :=
  a.toList.map Char.toLower == b.toList.map Char.toLower

namespace Template

/-- Every template, in the order in which they are listed and calibrated. -/
def all : List Template :=
  [arithmetic, dependency, branch, memoryStrided, loadHeavy, storeHeavy, branchHeavy]

def name : Template → String
  | arithmetic => "arithmetic"
  | dependency => "dependency"
  | branch => "branch"
  | memoryStrided => "memorystrided"
  | loadHeavy => "loadheavy"
  | storeHeavy => "storeheavy"
  | branchHeavy => "branchheavy"

/-- What one iteration does. -/
def description : Template → String
  | arithmetic => "20 independent ADDs per iteration (ALU throughput)"
  | dependency => "20 dependent ADDs per iteration (RAW hazards)"
  | branch => "5 taken branches per iteration (branch predictor)"
  | memoryStrided =>
    "10 store/load pairs at 32-byte stride per iteration (strided memory pattern)"
  | loadHeavy => "20 independent loads per iteration (load throughput)"
  | storeHeavy => "20 independent stores per iteration (store throughput)"
  | branchHeavy =>
    "10 compare/conditional-branch pairs per iteration (alternating taken/not-taken)"

/-- Instructions of one iteration, without the three of the loop control that every template shares. -/
def instructionsPerIteration : Template → UInt64
  | branch => 5
  | _ => 20

/-- The template of a name, whatever the case of its letters. -/
def named (name : String) : Result Template :=
  match all.find? (fun t => equalIgnoringCase t.name name) with
  | some t => .ok t
  | none => .error (.unknownTemplate name)

/-- The bytes of stack that a template works on. -/
def bufferBytes : Template → Option Nat
  | memoryStrided => some 320
  | loadHeavy | storeHeavy => some 160
  | _ => none

/-- Registers whose additions do not wait for each other. -/
def independent : List Register := [.x 0, .x 1, .x 2, .x 3, .x 4]

/-- The registers that receive independent loads: all but the base `x1`, the loop registers `x10` and `x11`,
    the exit call's `x8` and the platform register `x18`. -/
def loadTargets : List Register :=
  [.x 0, .x 2, .x 3, .x 4, .x 5, .x 6, .x 7, .x 9, .x 12, .x 13, .x 14, .x 15, .x 16, .x 17, .x 19, .x 20,
    .x 21, .x 22, .x 23, .x 24]

/-- The first words of the buffer, by their byte offset. -/
def wordOffsets (count : Nat) : List Nat := (List.range count).map (· * 8)

/-- The instructions that run once before the loop, after the buffer has been reserved. -/
def preparation : Template → List Instruction
  | arithmetic => independent.map fun r => .moveImmediate r 0
  | dependency => [.moveImmediate (.x 0) 0]
  | branch | branchHeavy => []
  | memoryStrided => [.moveImmediate (.x 0) 7, .moveRegister (.x 1) .sp]
  | loadHeavy =>
    .moveRegister (.x 1) .sp :: (List.range 20).flatMap fun i =>
      [.moveImmediate (.x 2) (i + 1), .store (.x 2) (.x 1) (i * 8)]
  | storeHeavy => [.moveRegister (.x 1) .sp, .moveImmediate (.x 2) 99]

/-- The straight-line code before the loop. -/
def setup (t : Template) : List Line :=
  let reserve : List Instruction := match t.bufferBytes with
    | some bytes => [.sub .sp .sp bytes]
    | none => []
  (reserve ++ t.preparation).map .instruction

/-- The loop body. Branches go to the next instruction, so the number of executed instructions does not
    depend on whether they are taken. -/
def body : Template → List Line
  | arithmetic =>
    (List.range 4).flatMap fun _ =>
      independent.map fun r => .instruction (.add r r 1)
  | dependency => (List.range 20).map fun _ => .instruction (.add (.x 0) (.x 0) 1)
  | branch =>
    (List.range 5).flatMap fun i =>
      [.instruction (.branch s!"br{i + 1}"), .label s!"br{i + 1}"]
  | memoryStrided =>
    (List.range 10).flatMap fun i =>
      [.instruction (.store (.x 0) (.x 1) (i * 32)), .instruction (.load (.x 0) (.x 1) (i * 32))]
  | loadHeavy =>
    (loadTargets.zip (wordOffsets 20)).map fun (r, offset) =>
      .instruction (.load r (.x 1) offset)
  | storeHeavy => (wordOffsets 20).map fun offset => .instruction (.store (.x 2) (.x 1) offset)
  | branchHeavy =>
    (List.range 10).flatMap fun i =>
      [.instruction (if i % 2 = 0 then .compareImmediate (.x 10) 0 else .compareRegister .zero (.x 10)),
        .instruction (.branchIf .greaterOrEqual s!"skip{i + 1}"), .label s!"skip{i + 1}"]

/-- The straight-line code after the loop: it gives the buffer back. -/
def teardown (t : Template) : List Line :=
  match t.bufferBytes with
  | some bytes => [.instruction (.add .sp .sp bytes)]
  | none => []

end Template

end CycleCost
