/-
Module: CycleCost.Host.Process
Purpose: Running a program on the host to its end, or to the end of its time.
Main exports: World.boot, World.spawn, World.await, World.save, World.contents
-/
import CycleCost.Calibration.Machine
import CycleCost.Host.Shell.Run

namespace CycleCost.Host

namespace World

def programDirectories : List Place := [["bin"], ["usr", "bin"]]

def programs : List String := Shell.shellNames ++ Shell.alsoPrograms ++ Utility.names

/-- The host right after it has been set up: its utilities, the usual directories and the device that swallows
    everything. -/
def boot (environment : List (String × String)) (directory : Place) : World where
  tree := ⟨[(["bin"], .directory), (["dev"], .directory), (["dev", "null"], .device),
      (["tmp"], .directory), (["usr"], .directory), (["usr", "bin"], .directory)]
    ++ programDirectories.flatMap fun d => programs.map fun name => (d ++ [name], .utility name)⟩
  clock := ⟨0⟩
  launches := 0
  slots := []
  environment
  directory

/-- The input and output of a process: nothing to read, and output where it is asked for. -/
def channels (output error : Channel) : List (Nat × Channel) :=
  [(0, .source []), (1, output), (2, error)]

/-- What a process is started with. -/
structure Start where
  program : String
  arguments : List String
  /-- Where it starts, seen from the directory of the host. -/
  directory : String
  output : Channel
  error : Channel

/-- The state of a process before its first step. -/
def firstShell (w : World) (start : Start) (directory : Place) (limit : Duration) : Shell where
  world := w
  deadline := ⟨w.clock.nanoseconds + limit.nanoseconds⟩
  process := 1000
  name := start.program
  arguments := start.arguments
  bindings := w.environment
  exported := w.environment.map (·.1)
  directory
  channels := channels start.output start.error
  status := 0
  functions := []
  traps := []
  modes := .none
  line := 0
  constants := []
  scope := none
  jobs := []
  isTested := false

/-- What a process is before its first step and what it runs, if it can be started. -/
def prepare (w : World) (start : Start) (limit : Duration) :
    Except Trouble (Shell × String × Shell.Runnable) := do
  let directory ← w.tree.directoryAt w.directory start.directory
  let s := w.firstShell start directory limit
  return (s, ← Shell.resolve s false start.program)

/-- A process is started and waited for. It is ended when `limit` has passed. -/
def spawn (w : World) (start : Start) (limit : Duration) : Result Shell.Ending × World :=
  match w.prepare start limit with
  | .error t => (.error (.inputOutput t.message), w)
  | .ok (s, path, runnable) =>
    let body : Work Unit := do
      Shell.pass w.launchTime
      Shell.programBody (Shell.runText (Shell.commandsLeft s)) start.arguments runnable
    let (outcome, after) := body.run
      (s.child (Shell.ownName start.program path runnable) start.arguments)
    (.ok (Shell.ending outcome after), after.world)

/-- The exit code of a process that was waited for: a signal leaves none, and one that was ended for its time
    is a failure of the named activity. -/
def exitOf (what : String) (limit : Duration) : Shell.Ending → Result (Option Int)
  | .exited status => .ok (some status)
  | .signalled _ => .ok none
  | .expired => .error (.timedOut what limit)

/-- Starts a process, waits for it, and gives its exit code. -/
def await (what : String) (start : Start) (limit : Duration) : Act World (Option Int) :=
  ExceptT.mk fun w =>
    let (ended, w) := w.spawn start limit
    (ended.bind (exitOf what limit), w)

/-- The bytes kept under a number are taken out. -/
def takeSlot (n : Nat) : StateM World (List UInt8) := fun w =>
  ((w.slots.lookup n).getD [], { w with slots := w.slots.filter (·.1 != n) })

/-- Where what a process writes is kept while it runs. -/
def keptSlot : Nat := 2

/-- Runs a process for what it writes to its error output, which comes beside its exit code. -/
def awaitErrors (what : String) (program : String) (arguments : List String) (directory : String)
    (limit : Duration) : Act World (Option Int × List UInt8) := do
  let exit ← (await what ⟨program, arguments, directory, .nowhere, .slot keptSlot⟩ limit).observe
  let bytes ← monadLift (takeSlot keptSlot)
  return (← Act.ofResult exit, bytes)

/-- A failed operation on files as a failure of input or output. -/
def fileResult {β : Type} : Except Trouble β → Result β
  | .ok v => .ok v
  | .error t => .error (.inputOutput t.message)

def bytesAt (w : World) (path : String) : Result (List UInt8) :=
  fileResult do w.tree.read (← w.tree.find w.directory path).1

/-- The text of a file; bytes that are no text are a failure. -/
def contents (w : World) (path : String) : Result String := do
  match String.fromUTF8? ⟨(← w.bytesAt path).toArray⟩ with
  | some s => return s
  | none => throw (.inputOutput "stream did not contain valid UTF-8")

/-- The host after a text has been written to a file. -/
def save (w : World) (path text : String) : Result World :=
  fileResult do
    let p ← w.tree.locate w.directory path
    return { w with tree := ← w.tree.write p (Script.utf8 text) }

end World

end CycleCost.Host
