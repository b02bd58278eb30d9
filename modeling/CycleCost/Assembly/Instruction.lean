/-
Module: CycleCost.Assembly.Instruction
Purpose: The fragment of the A64 instruction set that calibration programs are written in, and its text.
  Instructions are data, so that what a program executes can be reasoned about without reading its text.
Main exports: Register, Condition, HalfWord, Instruction, Line, Line.text
-/

namespace CycleCost.Assembly

/-- A 64-bit register operand: a general register by its number, the zero register, or the stack pointer. -/
inductive Register where
  | x (number : Nat)
  | zero
  | sp
  deriving DecidableEq, Repr

/-- The signed comparisons that a conditional branch tests. -/
inductive Condition where
  | less
  | greaterOrEqual
  deriving DecidableEq, Repr

/-- The four half-words of a register, by the bit at which each begins. -/
inductive HalfWord where
  | bit0
  | bit16
  | bit32
  | bit48
  deriving DecidableEq, Repr

/-- The instructions in use. `movz` and `movk` carry a 16-bit immediate for one of the four half-words of
    the register: the first clears the others and the second keeps them. -/
inductive Instruction where
  | moveImmediate (target : Register) (value : Nat)
  | moveRegister (target source : Register)
  | movz (target : Register) (value : UInt16) (place : HalfWord)
  | movk (target : Register) (value : UInt16) (place : HalfWord)
  | add (target source : Register) (value : Nat)
  | sub (target source : Register) (value : Nat)
  | compareImmediate (left : Register) (value : Nat)
  | compareRegister (left right : Register)
  | load (target base : Register) (offset : Nat)
  | store (source base : Register) (offset : Nat)
  | branch (target : String)
  | branchIf (condition : Condition) (target : String)
  | supervisorCall (number : Nat)
  deriving DecidableEq, Repr

/-- One line of a program: an instruction, or a label that names the next instruction. -/
inductive Line where
  | instruction (instruction : Instruction)
  | label (name : String)
  deriving DecidableEq, Repr

namespace Register

/-- The operand's name. -/
def text : Register → String
  | x number => s!"x{number}"
  | zero => "xzr"
  | sp => "sp"

end Register

namespace Condition

/-- The suffix of a conditional branch. -/
def text : Condition → String
  | less => "lt"
  | greaterOrEqual => "ge"

end Condition

namespace HalfWord

/-- The bits below a half-word. -/
def shift : HalfWord → Nat
  | bit0 => 0
  | bit16 => 16
  | bit32 => 32
  | bit48 => 48

/-- The shift that selects a half-word; the lowest one is written without it. -/
def text (place : HalfWord) : String := if place = bit0 then "" else s!", lsl #{place.shift}"

end HalfWord

namespace Instruction

/-- The number of a supervisor call: in hexadecimal when it has more than one digit. -/
def callText (number : Nat) : String :=
  if number < 10 then toString number
  else "0x" ++ String.ofList (Nat.toDigits 16 number)

/-- The instruction in assembler notation. -/
def text : Instruction → String
  | moveImmediate target value => s!"mov {target.text}, #{value}"
  | moveRegister target source => s!"mov {target.text}, {source.text}"
  | movz target value place => s!"movz {target.text}, #{value}" ++ place.text
  | movk target value place => s!"movk {target.text}, #{value}" ++ place.text
  | add target source value => s!"add {target.text}, {source.text}, #{value}"
  | sub target source value => s!"sub {target.text}, {source.text}, #{value}"
  | compareImmediate left value => s!"cmp {left.text}, #{value}"
  | compareRegister left right => s!"cmp {left.text}, {right.text}"
  | load target base offset => s!"ldr {target.text}, [{base.text}, #{offset}]"
  | store source base offset => s!"str {source.text}, [{base.text}, #{offset}]"
  | branch target => s!"b {target}"
  | branchIf condition target => s!"b.{condition.text} {target}"
  | supervisorCall number => "svc #" ++ callText number

end Instruction

namespace Line

/-- Whether the line is executed. -/
def isInstruction : Line → Bool
  | instruction _ => true
  | label _ => false

/-- The line of a source file: instructions are indented and labels end in a colon. -/
def text : Line → String
  | instruction i => "    " ++ i.text ++ "\n"
  | label name => name ++ ":\n"

end Line

end CycleCost.Assembly
