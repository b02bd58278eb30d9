/-
Module: CycleCost.Host.Shell.State
Purpose: What a running script can see and change: the host with its files and its clock, and the state of the
  script itself.
Main exports: World, Channel, Shell, Stop, Work, Shell.tick, Shell.put
-/
import CycleCost.Duration
import CycleCost.Host.Script
import CycleCost.Host.Script.Format
import CycleCost.Host.Tree

namespace CycleCost.Host

/-- A simulated host. -/
structure World where
  tree : Tree
  /-- The time that has passed. -/
  clock : Duration
  /-- Processes started so far. -/
  launches : Nat
  /-- Output that is kept apart from the files. -/
  slots : List (Nat × List UInt8)
  /-- The variables that every process starts with. -/
  environment : List (String × String)
  /-- Where processes start. -/
  directory : Place

/-- The time that the next process takes to start: a little over a millisecond, and never quite the same, as
    on any machine. -/
def World.launchTime (w : World) : Nat := 1000000 + (w.launches * 7919 % 1009) * 1000

inductive Channel where
  | nowhere
  /-- What is written goes to the end of a file. -/
  | file (p : Place)
  /-- What is written is kept apart. -/
  | slot (number : Nat)
  /-- What can still be read. -/
  | source (bytes : List UInt8)
  deriving DecidableEq

/-- The options of a script. -/
structure Modes where
  /-- A failed command ends the script. -/
  isStrict : Bool
  /-- A parameter without a value ends the script. -/
  rejectsUnset : Bool
  /-- Commands are shown on the error output before they are run. -/
  isTraced : Bool

/-- No options. -/
def Modes.none : Modes := ⟨false, false, false⟩

/-- A running script. -/
structure Shell where
  world : World
  /-- When the process is ended from outside. -/
  deadline : Duration
  process : Nat
  name : String
  arguments : List String
  bindings : List (String × String)
  exported : List String
  directory : Place
  channels : List (Nat × Channel)
  status : Nat
  functions : List (String × Script.Command)
  /-- What is done on a signal instead of dying of it; number 0 stands for the end of the script. -/
  traps : List (Nat × String)
  modes : Modes
  /-- The line of the command that is run. -/
  line : Nat
  /-- Variables that keep their values. -/
  constants : List String
  /-- Within a function, what its own variables were before; outside of functions none. -/
  scope : Option (List (String × Option String))
  /-- The processes that were not waited for, the latest first, with their statuses. -/
  jobs : List (Nat × Nat)
  /-- Whether the status of the running command is looked at, so that its failure ends nothing. -/
  isTested : Bool

/-- Why a script stops before its end. -/
inductive Stop where
  | exit (status : Nat)
  | signal (number : Nat)
  /-- The time limit has come. -/
  | expired
  | leaveLoop (depth : Nat)
  | nextRound (depth : Nat)
  | back (status : Nat)

/-- A step of a script. -/
abbrev Work (β : Type) := ExceptT Stop (StateM Shell) β

namespace Shell

/-- The time that a command takes at least: one millisecond. -/
def commandTime : Nat := 1000000

/-- Time passes; at the limit the process is ended. -/
def pass (nanoseconds : Nat) : Work Unit := do
  let s ← get
  let now := s.world.clock.nanoseconds + nanoseconds
  if s.deadline.nanoseconds ≤ now then
    set { s with world := { s.world with clock := s.deadline } }
    throw .expired
  else set { s with world := { s.world with clock := ⟨now⟩ } }

def tick : Work Unit := pass commandTime

def channel (s : Shell) (descriptor : Nat) : Channel := (s.channels.lookup descriptor).getD .nowhere

def withChannel (s : Shell) (descriptor : Nat) (c : Channel) : Shell :=
  { s with channels := (descriptor, c) :: s.channels.filter (·.1 != descriptor) }

def withTree (s : Shell) (t : Tree) : Shell := { s with world := { s.world with tree := t } }

def sent (s : Shell) (c : Channel) (bytes : List UInt8) : Shell :=
  match c with
  | .file p => s.withTree (s.world.tree.append p bytes)
  | .slot n =>
    let earlier := (s.world.slots.lookup n).getD []
    { s with world := { s.world with
      slots := (n, earlier ++ bytes) :: s.world.slots.filter (·.1 != n) } }
  | _ => s

/-- Bytes are written to a descriptor. -/
def put (descriptor : Nat) (bytes : List UInt8) : Work Unit :=
  modify fun s => s.sent (s.channel descriptor) bytes

/-- A line is written to the error output. -/
def complain (text : String) : Work Unit := put 2 (Script.utf8 (text ++ "\n"))

/-- A line is written to the error output that says where the script stands. -/
def grumble (text : String) : Work Unit := do
  let s ← get
  complain s!"{s.name}: {s.line}: {text}"

/-- The script ends for a failure of its own. -/
def fail {β : Type} (text : String) : Work β := do
  grumble text
  throw (.exit 2)

def valueOf? (s : Shell) (name : String) : Option String := s.bindings.lookup name

def withVariable (s : Shell) (name value : String) : Shell :=
  { s with bindings := (name, value) :: s.bindings.filter (·.1 != name) }

def withoutVariable (s : Shell) (name : String) : Shell :=
  { s with bindings := s.bindings.filter (·.1 != name) }

def nextProcess (s : Shell) : Nat := 1001 + s.world.launches

/-- The shell with one more process that was not waited for. -/
def withJob (s : Shell) (status : Nat) : Shell := { s with jobs := (s.nextProcess, status) :: s.jobs }

/-- The bytes that can still be read from a descriptor are taken. -/
def takeAll (descriptor : Nat) : Work (List UInt8) := do
  let s ← get
  match s.channel descriptor with
  | .source bytes =>
    set (s.withChannel descriptor (.source []))
    return bytes
  | _ => return []

/-- A line is taken from a descriptor; the flag says whether it ended in a line break. -/
def takeLine (descriptor : Nat) : Work (List UInt8 × Bool) := do
  let s ← get
  match s.channel descriptor with
  | .source bytes =>
    let line := bytes.takeWhile (· ≠ 10)
    let rest := bytes.drop line.length
    set (s.withChannel descriptor (.source (rest.drop 1)))
    return (line, !rest.isEmpty)
  | _ => return ([], false)

end Shell

end CycleCost.Host
