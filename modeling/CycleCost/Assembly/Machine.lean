/-
Module: CycleCost.Assembly.Machine
Purpose: The meaning of the instructions: a machine with registers, condition flags and memory, what one
  instruction does to it, and how a list of lines is executed up to the call that ends the program.
Main exports: Flags, Machine, Effect, Machine.perform, Execution, Execution.step, Execution.Reaches
-/
import CycleCost.Assembly.Instruction

namespace CycleCost.Assembly

/-- The condition flags that a comparison sets. -/
structure Flags where
  negative : Bool
  zero : Bool
  carry : Bool
  overflow : Bool
  deriving DecidableEq, Repr

namespace Flags

/-- The flags of `left - right`: the sign of the wrapped difference, whether it is zero, whether the
    unsigned subtraction borrows nothing, and whether the signed one leaves the 64-bit range. -/
def ofDifference (left right : UInt64) : Flags :=
  let difference := left - right
  let sign (word : UInt64) : Bool := word >>> 63 == 1
  { negative := sign difference
    zero := difference == 0
    carry := right ≤ left
    overflow := sign left != sign right && sign difference != sign left }

/-- Whether a condition holds: the signed order shows in the sign of the difference, which overflow
    inverts. -/
def satisfy (f : Flags) : Condition → Bool
  | .less => f.negative != f.overflow
  | .greaterOrEqual => f.negative == f.overflow

end Flags

/-- What instructions read and change. Memory is a byte for every address. -/
structure Machine where
  registers : Nat → UInt64
  stackPointer : UInt64
  flags : Flags
  memory : UInt64 → UInt8

/-- What an executed instruction does besides changing registers. -/
inductive Effect where
  | computed
  /-- A load from, or a store to, the eight bytes from an address on. -/
  | accessed (address : UInt64)
  | branched (taken : Bool)
  /-- The program hands over to the operating system. -/
  | called
  deriving DecidableEq, Repr

namespace Machine

/-- The value of an operand. -/
def read (m : Machine) : Register → UInt64
  | .x number => m.registers number
  | .zero => 0
  | .sp => m.stackPointer

/-- The machine with a new value in a register; the zero register takes none. -/
def write (m : Machine) (r : Register) (value : UInt64) : Machine :=
  match r with
  | .x number =>
    { m with registers := fun other => if other = number then value else m.registers other }
  | .zero => m
  | .sp => { m with stackPointer := value }

/-- The eight bytes from an address on as a number, the lowest byte first. -/
def loadWord (m : Machine) (address : UInt64) : UInt64 :=
  (List.range 8).foldr (fun i word => word <<< 8 ||| (m.memory (address + i.toUInt64)).toUInt64) 0

/-- The machine with a number in the eight bytes from an address on, the lowest byte first. -/
def storeWord (m : Machine) (address word : UInt64) : Machine :=
  { m with
    memory := fun place =>
      let distance := place - address
      if distance < 8 then (word >>> (8 * distance)).toUInt8 else m.memory place }

/-- The number of a half-word with all others zero. -/
def placed (value : UInt16) (place : HalfWord) : UInt64 := value.toUInt64 <<< place.shift.toUInt64

/-- What an instruction does. A branch changes nothing in the machine: where execution goes on is for the
    program to say. -/
def perform (m : Machine) : Instruction → Machine × Effect
  | .moveImmediate target value => (m.write target value.toUInt64, .computed)
  | .moveRegister target source => (m.write target (m.read source), .computed)
  | .movz target value place => (m.write target (placed value place), .computed)
  | .movk target value place =>
    let others := m.read target &&& ~~~ placed 0xFFFF place
    (m.write target (others ||| placed value place), .computed)
  | .add target source value => (m.write target (m.read source + value.toUInt64), .computed)
  | .sub target source value => (m.write target (m.read source - value.toUInt64), .computed)
  | .compareImmediate left value =>
    ({ m with flags := .ofDifference (m.read left) value.toUInt64 }, .computed)
  | .compareRegister left right =>
    ({ m with flags := .ofDifference (m.read left) (m.read right) }, .computed)
  | .load target base offset =>
    let address := m.read base + offset.toUInt64
    (m.write target (m.loadWord address), .accessed address)
  | .store source base offset =>
    let address := m.read base + offset.toUInt64
    (m.storeWord address (m.read source), .accessed address)
  | .branch _ => (m, .branched true)
  | .branchIf condition _ => (m, .branched (m.flags.satisfy condition))
  | .supervisorCall _ => (m, .called)

end Machine

namespace Instruction

/-- The label that a branch goes to. -/
def target? : Instruction → Option String
  | .branch target | .branchIf _ target => some target
  | _ => none

end Instruction

/-- A machine in the middle of a program: the line that comes next. -/
structure Execution where
  machine : Machine
  position : Nat

/-- An executed instruction: the place of its line, and what it did. -/
structure Event where
  position : Nat
  effect : Effect
  deriving DecidableEq, Repr

namespace Execution

def placeOf (lines : List Line) (name : String) : Option Nat := lines.idxOf? (.label name)

/-- One line. A label is passed without an event. Nothing follows the call to the operating system, a branch
    to a label that is missing, and the end of the lines. -/
def step (lines : List Line) (e : Execution) : Option (Execution × List Event) :=
  match lines[e.position]? with
  | none => none
  | some (.label _) => some (⟨e.machine, e.position + 1⟩, [])
  | some (.instruction i) =>
    let (machine, effect) := e.machine.perform i
    let next : Option Nat := match effect with
      | .called => none
      | .branched true => i.target?.bind (placeOf lines)
      | _ => some (e.position + 1)
    next.map fun position => (⟨machine, position⟩, [⟨e.position, effect⟩])

/-- `Reaches lines e events f`: from `e` the program gets to `f`, and `events` are the instructions executed
    on the way, in their order. -/
inductive Reaches (lines : List Line) : Execution → List Event → Execution → Prop where
  | here (e : Execution) : Reaches lines e [] e
  | onward {e f g : Execution} {first later : List Event} :
      step lines e = some (f, first) → Reaches lines f later g → Reaches lines e (first ++ later) g

/-- The next line is the call to the operating system. -/
def AtCall (lines : List Line) (e : Execution) : Prop :=
  ∃ number, lines[e.position]? = some (.instruction (.supervisorCall number))

end Execution

end CycleCost.Assembly
