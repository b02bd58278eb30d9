/-
Module: CycleCost.Calibration.Rehearsal
Purpose: A machine that follows a script. Each program has a list of runs that it goes through in turn, over
  and over; time passes only by what the script says, so that a calibration can be checked exactly.
Main exports: Rehearsal.Step, Rehearsal.Script, Rehearsal.Stage, Rehearsal.machine
-/
import CycleCost.Calibration.Machine
import CycleCost.Text

namespace CycleCost.Rehearsal

/-- One run of a program. -/
structure Step where
  elapsed : Duration
  /-- None when a signal ends the run. -/
  exit : Option Int
  /-- A run that cannot be made at all. -/
  fault : Option Fault

/-- The run of a program about which the script says nothing. -/
def Step.silent : Step := ⟨⟨0⟩, some 0, none⟩

/-- What the machine will do. -/
structure Script where
  /-- The runs of programs by their paths; the path `*` stands for every other one. -/
  programs : List (String × List Step)
  /-- A source with the given part cannot be built; the first such rule counts. -/
  buildFaults : List (String × Fault)
  /-- A kernel that cannot be built, by its name and count with a blank between. -/
  kernelFaults : List (String × Fault)
  /-- The counted instructions of programs by their paths. -/
  counts : List (String × Result UInt64)

/-- How far the script has come. -/
structure Stage where
  /-- Programs built so far. -/
  built : Nat
  /-- Runs made so far, by path. -/
  runs : List (String × Nat)

/-- Before the first request. -/
def Stage.start : Stage := ⟨0, []⟩

def Stage.runsOf (stage : Stage) (program : String) : Nat := (stage.runs.lookup program).getD 0

def Stage.afterRun (stage : Stage) (program : String) : Stage :=
  { stage with
    runs := (program, stage.runsOf program + 1) :: stage.runs.filter (·.1 != program) }

namespace Script

/-- The run of a program that comes after `earlier` ones. -/
def step (script : Script) (program : String) (earlier : Nat) : Step :=
  let steps := ((script.programs.lookup program).or (script.programs.lookup "*")).getD []
  (steps[earlier % steps.length]?).getD .silent

def buildFault (script : Script) (source : String) : Option Fault :=
  (script.buildFaults.find? fun rule => Text.contains rule.1.toList source.toList).map (·.2)

end Script

def Step.outcome (step : Step) : Result Run :=
  match step.fault with
  | some fault => .error fault
  | none => .ok ⟨step.exit, step.elapsed⟩

def machine (script : Script) : Machine Stage where
  build source := do
    match script.buildFault source with
    | some fault => throw fault
    | none =>
      let stage ← get
      set { stage with built := stage.built + 1 }
      return s!"/fake/{stage.built}"
  buildKernel name count :=
    match script.kernelFaults.lookup s!"{name} {count}" with
    | some fault => throw fault
    | none => return s!"/kernel/{name}_r{count}"
  count program := Act.ofResult ((script.counts.lookup program).getD (.ok 0))
  run program _ := do
    let stage ← get
    set (stage.afterRun program)
    Act.ofResult (script.step program (stage.runsOf program)).outcome
  release _ := pure ()

end CycleCost.Rehearsal
