/-
Module: CycleCost.Host.Shell.Launch
Purpose: Finding a program by its name, and running it as a process of its own.
Main exports: Shell.Runnable, Shell.resolve, Shell.Ending, Shell.child, Shell.programBody, Shell.launch
-/
import CycleCost.Host.Shell.Builtin
import CycleCost.Host.Shell.Utility
import CycleCost.Path

namespace CycleCost.Host.Shell

open Script

/-- What can be run at a path. -/
inductive Runnable where
  | script (text : String) (options : List String)
  | utility (name : String)
  | shell
  deriving DecidableEq

def shellNames : List String := ["sh", "dash", "bash"]

/-- The interpreter that the first line of a script names, with its options. -/
def interpreter (text : String) : Option (List String) :=
  match text.toList with
  | '#' :: '!' :: rest =>
    let words := (Text.fields ' ' (String.ofList (rest.takeWhile (· ≠ '\n')))).filter (· ≠ "")
    match words with
    | first :: more => some (if Utility.lastName first = "env" then more else first :: more)
    | [] => some []
  | _ => none

/-- What can be run at a path. A file has to be marked executable, and its first line has to name the shell;
    `asScript` lets it do without such a line. -/
def runnableAt (t : Tree) (directory : Place) (asScript : Bool) (path : String) :
    Except Trouble Runnable := do
  let (_, node) ← t.find directory path
  match node with
  | .directory | .device => throw .denied
  | .utility name => return if name ∈ shellNames then .shell else .utility name
  | .file _ false => throw .denied
  | .file content true =>
    let text := textOfBytes content
    match interpreter text with
    | some (first :: options) =>
      if Utility.lastName first ∈ shellNames then return .script text options else throw .missing
    | some [] => throw .badFormat
    | none => if asScript then return .script text [] else throw .badFormat

/-- The first directory of a search path in which a name can be run. One that may not be run is passed over,
    but remembered as the reason if no other is found. -/
def search (t : Tree) (directory : Place) (asScript : Bool) (name : String) :
    List String → Trouble → Except Trouble (String × Runnable)
  | [], reason => .error reason
  | d :: rest, reason =>
    let path := Path.join (if d.isEmpty then "." else d) name
    match runnableAt t directory asScript path with
    | .ok r => .ok (path, r)
    | .error .denied => search t directory asScript name rest .denied
    | .error .badFormat => .error .badFormat
    | .error _ => search t directory asScript name rest reason

/-- The path of a program and what can be run there: a name with a separator is a path, and any other name is
    looked up in the directories of the search path. -/
def resolve (s : Shell) (asScript : Bool) (name : String) : Except Trouble (String × Runnable) :=
  if name.isEmpty then .error .missing
  else if name.toList.contains '/' then
    (runnableAt s.world.tree s.directory asScript name).map fun r => (name, r)
  else
    search s.world.tree s.directory asScript name (Text.fields ':' ((s.valueOf? "PATH").getD "")) .missing

/-- What a program is told that it is called: a script its path, and anything else the name that was given. -/
def ownName (name path : String) : Runnable → String
  | .script _ _ => path
  | .utility _ | .shell => name

/-- How a process ends. -/
inductive Ending where
  | exited (status : Nat)
  | signalled (number : Nat)
  | expired
  deriving DecidableEq, Repr

/-- The shell of a process that this one starts: it has the variables that are handed on, and nothing else of
    the state. -/
def child (s : Shell) (name : String) (arguments : List String) : Shell :=
  { s with
    world := { s.world with launches := s.world.launches + 1 }
    process := s.nextProcess
    name, arguments
    bindings := s.bindings.filter fun v => s.exported.contains v.1
    status := 0
    functions := []
    traps := []
    modes := .none
    line := 0
    constants := []
    scope := none
    jobs := []
    isTested := false }

/-- The shell as one that a failed command ends. -/
def strictly (s : Shell) : Shell := { s with modes := { s.modes with isStrict := true } }

/-- The shell as a program: it runs the text behind `-c`, the script of a path, or its input. -/
def shellProgram (run : String → Work Unit) : List String → Work Unit
  | [] => do run (textOfBytes (← takeAll 0))
  | "-e" :: rest => do
    modify strictly
    shellProgram run rest
  | "-c" :: text :: rest => do
    modify fun s => { s with name := rest.headD s.name, arguments := rest.drop 1 }
    run text
  | path :: rest => do
    let s ← get
    match contentAt s path with
    | .ok bytes =>
      set { s with name := path, arguments := rest }
      run (textOfBytes bytes)
    | .error _ =>
      complain s!"{s.name}: 0: cannot open {path}: No such file"
      throw (.exit 2)

/-- What is done at the end of a script, and then the status with which it ended. -/
def lastAct (run : String → Work Unit) (status : Nat) : Work Unit := do
  match (← get).traps.lookup 0 with
  | none => throw (.exit status)
  | some action =>
    modify fun s => { s with traps := s.traps.filter (·.1 != 0), status }
    run action
    throw (.exit status)

/-- A script together with what it leaves to be done at its end. -/
def withLastAct (run : String → Work Unit) (body : Work Unit) : Work Unit := ExceptT.mk fun s =>
  match body.run s with
  | (.ok (), s) => (lastAct run s.status).run s
  | (.error (.exit status), s) => (lastAct run status).run s
  | other => other

/-- What a process does that runs a program. -/
def programBody (run : String → Work Unit) (arguments : List String) : Runnable → Work Unit
  | .utility name => do
    throw (.exit (← if alsoPrograms.contains name then builtin name arguments
      else Utility.run name arguments))
  | .shell => withLastAct run (shellProgram run arguments)
  | .script text options => do
    if options.contains "-e" then modify strictly
    withLastAct run (run text)

/-- How a process ended that stopped in some way. -/
def ending (outcome : Except Stop Unit) (s : Shell) : Ending :=
  match outcome with
  | .error (.exit status) => .exited status
  | .error (.back status) => .exited status
  | .error (.signal n) => .signalled n
  | .error .expired => .expired
  | _ => .exited s.status

/-- Runs a program as a process of its own. One that cannot be run is complained of, under the name of the
    command that should have run it. -/
def launch (run : String → Work Unit) (command name : String) (arguments : List String) :
    Work Ending := do
  match resolve (← get) true name with
  | .error .denied =>
    grumble s!"{command}{name}: Permission denied"
    return .exited 126
  | .error _ =>
    grumble s!"{command}{name}: not found"
    return .exited 127
  | .ok (path, runnable) =>
    pass (← get).world.launchTime
    let s ← get
    let (outcome, after) := (programBody run arguments runnable).run
      (s.child (ownName name path runnable) arguments)
    set { s with world := after.world }
    return ending outcome after

end CycleCost.Host.Shell
