/-
Module: CycleCost.Host.Bench
Purpose: The host as a machine that is measured: its toolchain builds templates, a script builds kernels, a
  tool counts instructions, and its clock times the runs.
Main exports: runProgram, countInstructions, Toolchain.machine, Toolchain.machineWith
-/
import CycleCost.Counter
import CycleCost.Host.KernelScript

namespace CycleCost.Host

/-- A program without arguments, started without input and output. -/
def quietly (program : String) : World.Start := ⟨program, [], ".", .nowhere, .nowhere⟩

/-- Runs a program without input and output. -/
def runProgram (program : String) (limit : Duration) : Act World (Option Int) :=
  World.await "run" (quietly program) limit

/-- The time that a step takes, on the clock of the host. -/
def timed {β : Type} (step : Act World β) : Act World (β × Duration) := do
  let start := (← get).clock
  let v ← step
  return (v, ⟨(← get).clock.nanoseconds - start.nanoseconds⟩)

def timeRun (program : String) (limit : Duration) : Act World Run := do
  let (exit, elapsed) ← timed (runProgram program limit)
  return ⟨exit, elapsed⟩

def reportText (bytes : List UInt8) : Result String :=
  match String.fromUTF8? ⟨bytes.toArray⟩ with
  | some s => .ok s
  | none => .error (.inputOutput "stream did not contain valid UTF-8")

/-- The instructions of one run of a program as a tool counts them. How the program ends does not matter. -/
def countInstructions (tool : CounterTool) (limit : Duration) (program : String) : Act World UInt64 := do
  let (name, arguments) := tool.command program
  let (_, bytes) ← World.awaitErrors "count" name arguments "." limit
  match tool.parse (← Act.ofResult (reportText bytes)) with
  | some count => return count
  | none => throw (.uncounted program s!"no instruction count in {tool.name} output")

namespace Toolchain

/-- The host for templates; it has no kernels. -/
def machine (t : Toolchain) : Machine World where
  build := t.build
  buildKernel name _ := throw (.unknownTemplate name)
  count := countInstructions .perf patience
  run := timeRun
  release := discard

/-- The host for the kernels of a script, with a tool that counts within a time limit. -/
def machineWith (t : Toolchain) (k : KernelScript) (tool : CounterTool) (limit : Duration) :
    Machine World :=
  { t.machine with buildKernel := k.build, count := countInstructions tool limit }

end Toolchain

end CycleCost.Host
