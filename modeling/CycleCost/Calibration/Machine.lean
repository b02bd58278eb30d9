/-
Module: CycleCost.Calibration.Machine
Purpose: The machine that is measured, as the calibration sees it: it builds programs, counts their
  instructions and runs them. A machine is given by its actions on a state, so a calibration is a function
  of the machine, and a real host, a rehearsed script and a recorder of calls are all machines.
Main exports: Act, Act.observe, Run, Machine, Call, Machine.recorded
-/
import CycleCost.Fault

namespace CycleCost

/-- A step on a machine whose state is `σ`. A step that fails has still changed the state. -/
abbrev Act (σ β : Type) := ExceptT Fault (StateM σ) β

/-- The outcome of a step as a value, so that the next step can look at a failure. -/
def Act.observe {σ β : Type} (step : Act σ β) : Act σ (Result β) := ExceptT.mk (.ok <$> step.run)

/-- A pure result as a step that leaves the machine alone. -/
def Act.ofResult {σ β : Type} (r : Result β) : Act σ β := ExceptT.mk (pure r)

/-- How a run ended and how long it took by the stopwatch. A signal leaves no exit code. -/
structure Run where
  exit : Option Int
  elapsed : Duration

/-- The actions of a machine. Programs are named by their paths. -/
structure Machine (σ : Type) where
  /-- Turns a generated source into a program. -/
  build : String → Act σ String
  /-- Builds an external kernel for a repetition count. -/
  buildKernel : String → UInt64 → Act σ String
  /-- The instructions that one run of a program retires. -/
  count : String → Act σ UInt64
  /-- Runs a program within a time limit. -/
  run : String → Duration → Act σ Run
  /-- Gives back what was built for a generated source. -/
  release : String → StateM σ Unit

/-- A request to a machine. -/
inductive Call where
  | build (source : String)
  | kernel (name : String) (count : UInt64)
  | count (program : String)
  | run (program : String) (limit : Duration)
  deriving DecidableEq, Repr

/-- The state of a machine together with the requests it was given, the latest first. -/
structure Recorded (σ : Type) where
  state : σ
  latest : List Call

namespace Recorded

/-- The requests in the order in which they were made. -/
def calls {σ : Type} (r : Recorded σ) : List Call := r.latest.reverse

end Recorded

/-- A step of the machine, written down before it is taken. -/
def Act.recorded {σ β : Type} (call : Call) (step : Act σ β) : Act (Recorded σ) β :=
  ExceptT.mk fun r =>
    let (outcome, state) := step.run r.state
    (outcome, ⟨state, call :: r.latest⟩)

namespace Machine

variable {σ : Type}

/-- The same machine, keeping a record of its requests. Giving a program back is no request. -/
def recorded (m : Machine σ) : Machine (Recorded σ) where
  build source := Act.recorded (.build source) (m.build source)
  buildKernel name count := Act.recorded (.kernel name count) (m.buildKernel name count)
  count program := Act.recorded (.count program) (m.count program)
  run program limit := Act.recorded (.run program limit) (m.run program limit)
  release program := fun r => ((), { r with state := (m.release program r.state).2 })

end Machine

end CycleCost
