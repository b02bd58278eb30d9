/-
Module: CycleCost.Assembly.Immediate
Purpose: The instructions that load a repetition count into the loop-bound register. They stand before the
  loop, so their cost is part of the fixed overhead and never of the slope.
Main exports: boundRegister, singleImmediateLimit, countLimit, loadCount
-/
import CycleCost.Assembly.Instruction
import CycleCost.Fault

namespace CycleCost.Assembly

/-- The register that holds the loop bound. -/
def boundRegister : Register := .x 11

/-- The largest count that a single immediate carries. -/
def singleImmediateLimit : UInt64 := 0xFFFF

/-- The largest count that two immediates carry. -/
def countLimit : UInt64 := 0xFFFFFFFF

/-- Bits 0 to 15 of a count. -/
def lowHalfWord (count : UInt64) : UInt16 := count.toUInt16

/-- Bits 16 to 31 of a count. -/
def highHalfWord (count : UInt64) : UInt16 := (count >>> 16).toUInt16

/-- The shortest sequence that leaves `count` in the bound register: one instruction when the count fits
    one immediate, else a second one that fills in the next half-word. -/
def loadCount (count : UInt64) : Result (List Instruction) :=
  if countLimit < count then .error (.countTooLarge count countLimit)
  else if count ≤ singleImmediateLimit then .ok [.movz boundRegister (lowHalfWord count) .bit0]
  else .ok [.movz boundRegister (lowHalfWord count) .bit0, .movk boundRegister (highHalfWord count) .bit16]

end CycleCost.Assembly
