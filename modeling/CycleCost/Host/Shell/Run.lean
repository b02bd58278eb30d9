/-
Module: CycleCost.Host.Shell.Run
Purpose: Running commands. A command is run by recursion on itself; texts that are run and functions that are
  called go one level deeper, and loops go round at most as often as time allows.
Main exports: Shell.Inner, Shell.exec, Shell.runText
-/
import CycleCost.Host.Script.Reader
import CycleCost.Host.Shell.Launch

namespace CycleCost.Host.Shell

open Script

/-- What happens one level deeper. -/
structure Inner where
  /-- Runs the text of a script. -/
  run : String → Work Unit
  /-- Runs the body of a function. -/
  call : Command → Work Unit

/-- Sets the status of the last command. -/
def setStatus (status : Nat) : Work Unit := modify fun s => { s with status }

/-- A failed command ends a strict script unless its status is looked at. -/
def checkStrict : Work Unit := do
  let s ← get
  if s.modes.isStrict && !s.isTested && s.status ≠ 0 then throw (.exit s.status)

/-- A step whose status is looked at, so that its failure ends nothing. -/
def tested (body : Work Unit) : Work Unit := do
  let before := (← get).isTested
  modify fun s => { s with isTested := true }
  body
  modify fun s => { s with isTested := before }

/-- Runs a program; the result is its status, which for a signal is 128 more than the signal's number. -/
def launched (run : String → Work Unit) (name : String) (arguments : List String) : Work Nat := do
  match ← launch run "" name arguments with
  | .exited status => return status
  | .signalled n => return 128 + n
  | .expired => throw .expired

/-- Whether a loop goes on after a stop inside it, unless the stop is for something outside. -/
def afterStop : Stop → Except Stop Bool
  | .leaveLoop n => if n ≤ 1 then .ok false else .error (.leaveLoop (n - 1))
  | .nextRound n => if n ≤ 1 then .ok true else .error (.nextRound (n - 1))
  | stop => .error stop

/-- One round of a loop; the result says whether the loop goes on. -/
def roundOf (body : Work Unit) : Work Bool := ExceptT.mk fun s =>
  match body.run s with
  | (.ok (), s) => (.ok true, s)
  | (.error stop, s) => (afterStop stop, s)

/-- Rounds until one says that the loop does not go on; `most` is above the number that time allows. -/
def iterate : (most : Nat) → Work Bool → Work Unit
  | 0, _ => throw .expired
  | most + 1, round => do
    if ← round then iterate most round

/-- A round for each item until one says that the loop does not go on. -/
def forItems (round : String → Work Bool) : List String → Work Unit
  | [] => return
  | item :: rest => do
    if ← round item then forItems round rest

/-- The commands that the time limit leaves room for. -/
def commandsLeft (s : Shell) : Nat := s.deadline.nanoseconds / commandTime + 1

/-- The signal and the processes that the arguments of `kill` name. -/
def killArguments : List String → Option (Nat × List String)
  | "-s" :: n :: rest => (Condition.signalNumber n).map fun signal => (signal, rest)
  | "-n" :: n :: rest => (Condition.signalNumber n).map fun signal => (signal, rest)
  | a :: rest =>
    match a.toList with
    | '-' :: letters => (Condition.signalNumber (String.ofList letters)).map fun signal => (signal, rest)
    | _ => some (15, a :: rest)
  | [] => none

/-- A signal reaches this process. Two signals cannot be caught, and one of them stops the process for
    ever. -/
def receive (inner : Inner) (signal : Nat) : Work Nat := do
  if signal = 9 then throw (.signal 9)
  else if signal = 19 then throw .expired
  else match (← get).traps.lookup signal with
    | some action =>
      if !action.isEmpty then inner.run action
      return 0
    | none => if Condition.isHarmless signal then return 0 else throw (.signal signal)

/-- Sends a signal; only the script's own process can be reached. -/
def kill (inner : Inner) (arguments : List String) : Work Nat := do
  let s ← get
  match killArguments arguments with
  | none => return 1
  | some (signal, targets) =>
    if targets.contains (toString s.process) || targets.contains "0" then receive inner signal
    else
      grumble "kill: No such process"
      return 1

def includeFile (inner : Inner) (path : String) : Work Nat := do
  match contentAt (← get) path with
  | .ok bytes =>
    inner.run (textOfBytes bytes)
    return (← get).status
  | .error _ => fail s!".: cannot open {path}: No such file"

/-- Runs a program in the place of this script. -/
def replaceBy (inner : Inner) (name : String) (arguments : List String) : Work Nat := do
  match ← launch inner.run "exec: " name arguments with
  | .exited status => throw (.exit status)
  | .signalled n => throw (.signal n)
  | .expired => throw .expired

/-- The names of commands that can be run. -/
def knownNames (s : Shell) (names : List String) : List String :=
  names.filter fun n => builtins.contains n || (s.functions.lookup n).isSome || (resolve s true n).isOk

/-- The shell with the variables that were a function's own as they were before. -/
def restored (own : List (String × Option String)) (s : Shell) : Shell :=
  own.foldl (fun s v => match v.2 with
    | some value => s.withVariable v.1 value
    | none => s.withoutVariable v.1) s

def callFunction (inner : Inner) (body : Command) (arguments : List String) : Work Nat := do
  let outer := (← get).arguments
  let scope := (← get).scope
  modify fun s => { s with arguments, scope := some [] }
  let status ← ExceptT.mk fun s =>
    match (inner.call body).run s with
    | (.ok (), s) => (.ok s.status, s)
    | (.error (.back status), s) => (.ok status, s)
    | (.error stop, s) => (.error stop, s)
  modify fun s => { restored (s.scope.getD []) s with arguments := outer, scope }
  return status

/-- Runs a named command; the result is its status. -/
def invoke (inner : Inner) (name : String) (arguments : List String) : Work Nat := do
  let s ← get
  match s.functions.lookup name with
  | some body => callFunction inner body arguments
  | none =>
    match name, arguments with
    | "eval", words =>
      inner.run (" ".intercalate words)
      return (← get).status
    | ".", path :: _ => includeFile inner path
    | "exec", command :: rest => replaceBy inner command rest
    | "command", "-v" :: names =>
      let known := knownNames s names
      put 1 (utf8 (String.join (known.map (· ++ "\n"))))
      return if known.length = names.length then 0 else 127
    | "type", names => return if (knownNames s names).length = names.length then 0 else 127
    | "command", command :: rest =>
      if builtins.contains command then builtin command rest else launched inner.run command rest
    | "kill", arguments => kill inner arguments
    | name, arguments =>
      if builtins.contains name then builtin name arguments else launched inner.run name arguments

/-- Shows a command before it is run, if that is asked for. -/
def trace (words : List String) : Work Unit := do
  if (← get).modes.isTraced && !words.isEmpty then complain ("+ " ++ " ".intercalate words)

/-- Runs a simple command. Assignments in front of a name hold only while it runs, and `exec` without a name
    leads descriptors elsewhere for good. -/
def execSimple (inner : Inner) (line : Nat) (assignments : List (String × Word)) (words : List Word)
    (redirects : List Redirect) : Work Unit := do
  tick
  modify fun s => { s with line }
  let given ← fields inner.run words
  match given with
  | [] =>
    if words.isEmpty then setStatus 0
    trace (← assignAll inner.run assignments)
    if !redirects.isEmpty then setStatus (← redirected inner.run false redirects (pure 0))
  | ["exec"] =>
    if ← redirectAll inner.run redirects then setStatus 0 else throw (.exit 2)
  | name :: arguments =>
    let before ← get
    trace ((← assignAll inner.run assignments) ++ name :: arguments)
    if assignments.isEmpty then
      setStatus (← redirected inner.run (special.contains name) redirects (invoke inner name arguments))
    else
      modify fun s => { s with exported := assignments.map (·.1) ++ s.exported }
      setStatus (← redirected inner.run (special.contains name) redirects (invoke inner name arguments))
      modify fun s => { s with bindings := before.bindings, exported := before.exported }
  checkStrict

mutual

def exec (inner : Inner) : Command → Work Unit
  | .nothing => return
  | .simple line assignments words redirects => execSimple inner line assignments words redirects
  | .sequence first second => do
    exec inner first
    exec inner second
  | .both left right => do
    tested (exec inner left)
    if (← get).status = 0 then exec inner right
  | .either left right => do
    tested (exec inner left)
    if (← get).status ≠ 0 then exec inner right
  | .negate c => do
    tested (exec inner c)
    setStatus (if (← get).status = 0 then 1 else 0)
  | .pipe left right => do
    let bytes ← captured (exec inner left)
    let status ← isolated do
      modify fun s => s.withChannel 0 (.source bytes)
      exec inner right
    setStatus status
    checkStrict
  | .subshell c => do
    setStatus (← isolated (exec inner c))
    checkStrict
  | .detached c => do
    let clock := (← get).world.clock
    let status ← isolated (exec inner c)
    modify fun s => { s.withJob status with
      world := { s.world with clock, launches := s.world.launches + 1 }
      status := 0 }
  | .branch condition thenPart elsePart => do
    tested (exec inner condition)
    if (← get).status = 0 then exec inner thenPart
    else
      exec inner elsePart
      if elsePart matches .nothing then setStatus 0
  | .loop whileFails condition body => do
    setStatus 0
    iterate (commandsLeft (← get)) do
      tick
      let earlier := (← get).status
      tested (exec inner condition)
      if ((← get).status = 0) != whileFails then roundOf (exec inner body)
      else
        setStatus earlier
        return false
  | .each name words body => do
    let items ← match words with
      | some ws => fields inner.run ws
      | none => do pure (← get).arguments
    setStatus 0
    forItems
      (fun item => do
        modify fun s => s.withVariable name item
        roundOf (exec inner body))
      items
  | .choose subject cases => do
    execCase inner (joined (← expandAll inner.run subject)) cases
  | .redirected line c redirects => do
    modify fun s => { s with line }
    let status ← redirected inner.run false redirects do
      exec inner c
      return (← get).status
    setStatus status
  | .define name body =>
    modify fun s =>
      { s with functions := (name, body) :: s.functions.filter (·.1 != name), status := 0 }

def execCase (inner : Inner) (text : String) : List (List Word × Command) → Work Unit
  | [] => setStatus 0
  | (patterns, body) :: rest => do
    if ← fitsAny inner.run text patterns then exec inner body else execCase inner text rest

end

mutual

/-- Runs the text of a script; at most `depth` texts and functions may be under way within each other. -/
def runText : (depth : Nat) → String → Work Unit
  | 0, _ => throw .expired
  | depth + 1, text => do
    let reading := parse text
    reading.commands.forM (exec ⟨runText depth, callCommand depth⟩)
    if !reading.isWhole then fail "Syntax error"

/-- Runs the body of a function. -/
def callCommand : (depth : Nat) → Command → Work Unit
  | 0, _ => throw .expired
  | depth + 1, c => exec ⟨runText depth, callCommand depth⟩ c

end

end CycleCost.Host.Shell
