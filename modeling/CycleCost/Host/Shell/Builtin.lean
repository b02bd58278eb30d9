/-
Module: CycleCost.Host.Shell.Builtin
Purpose: The commands that the shell carries out itself.
Main exports: Shell.builtins, Shell.builtin
-/
import CycleCost.Host.Shell.Condition
import CycleCost.Host.Shell.Redirection

namespace CycleCost.Host.Shell

open Script

/-- The commands that need nothing but the state of the shell. -/
def builtins : List String :=
  [":", "[", "break", "cd", "continue", "echo", "exit", "export", "false", "local", "printf", "pwd", "read",
    "readonly", "return", "set", "shift", "test", "times", "trap", "true", "umask", "unset", "wait"]

def alsoPrograms : List String := ["[", "echo", "printf", "pwd", "test"]

/-- The commands whose failure ends the script. -/
def special : List String :=
  [":", ".", "break", "continue", "eval", "exec", "exit", "export", "readonly", "return", "set", "shift",
    "times", "trap", "unset"]

/-- A name with the value that an argument such as `name=value` gives it. -/
def splitAssignment (a : String) : String × Option String :=
  let name := a.toList.takeWhile (· ≠ '=')
  if name.length < a.length then
    (String.ofList name, some (String.ofList (a.toList.drop (name.length + 1))))
  else (a, none)

/-- A number in decimal digits, of 31 bits. -/
def smallNumber (word : String) : Option Nat :=
  if word.isEmpty || !word.all Char.isDigit then none
  else word.toNat?.filter (· < Nat.pow 2 31)

def numberArgument (command : String) (default : Nat) : List String → Work Nat
  | [] => return default
  | a :: _ =>
    match smallNumber a with
    | some n => return n
    | none => fail s!"{command}: Illegal number: {a}"

/-- The options of the shell, by their letters and names. -/
def optionNames : List (Char × String) :=
  [('a', "allexport"), ('b', "notify"), ('C', "noclobber"), ('e', "errexit"), ('f', "noglob"),
    ('m', "monitor"), ('n', "noexec"), ('u', "nounset"), ('v', "verbose"), ('x', "xtrace")]

/-- An option of the shell is set or cleared. -/
def switched (isOn : Bool) (letter : Char) (m : Modes) : Modes :=
  match letter with
  | 'e' => { m with isStrict := isOn }
  | 'u' => { m with rejectsUnset := isOn }
  | 'x' => { m with isTraced := isOn }
  | _ => m

/-- Options of the shell are set or cleared by their letters; an `o` is followed by a name. The result has the
    arguments that are left. -/
def setLetters (isOn : Bool) : List Char → List String → Work (List String)
  | [], rest => return rest
  | 'o' :: _, [] => return []
  | 'o' :: letters, name :: rest =>
    match optionNames.find? (·.2 == name) with
    | some (letter, _) => do
      modify fun s => { s with modes := switched isOn letter s.modes }
      setLetters isOn letters rest
    | none => fail s!"set: Illegal option -o {name}"
  | letter :: letters, rest =>
    if optionNames.any (·.1 == letter) then do
      modify fun s => { s with modes := switched isOn letter s.modes }
      setLetters isOn letters rest
    else fail s!"set: Illegal option -{letter}"

/-- Options of the shell are set and cleared; the arguments behind them, if there are any, become the
    shell's own. `most` is the number of arguments. -/
def setOptions : (most : Nat) → List String → Work Unit
  | 0, _ => return
  | _, [] => return
  | _, "--" :: rest => modify fun s => { s with arguments := rest }
  | most + 1, a :: rest =>
    match a.toList with
    | '-' :: letters => do setOptions most (← setLetters true letters rest)
    | '+' :: letters => do setOptions most (← setLetters false letters rest)
    | _ => modify fun s => { s with arguments := a :: rest }

/-- The shell after a line has been cut into variables; the last one takes what is left. -/
def readInto (cuts : List Char) : List String → List Char → Shell → Shell
  | [], _, s => s
  | [name], line, s =>
    let trimmed := (line.dropWhile cuts.contains).reverse.dropWhile cuts.contains
    s.withVariable name (String.ofList trimmed.reverse)
  | name :: names, line, s =>
    let line := line.dropWhile cuts.contains
    let field := line.takeWhile fun c => !cuts.contains c
    readInto cuts names (line.drop (field.length + 1)) (s.withVariable name (String.ofList field))

/-- The variable that an argument such as `name=value` sets; the result is its name. -/
def declare (argument : String) : Work String := do
  let (name, value) := splitAssignment argument
  if let some v := value then assign name v
  return name

/-- A variable is handed on to other processes. -/
def handOn (name : String) (s : Shell) : Shell :=
  { s with exported := name :: s.exported.filter (· != name) }

/-- A variable becomes a function's own: what it was before is kept, once. -/
def makeOwn (name : String) : Work Unit := do
  let s ← get
  match s.scope with
  | none => fail "local: not in a function"
  | some own =>
    if !own.any (·.1 == name) then set { s with scope := some ((name, s.valueOf? name) :: own) }

/-- What is done on the named signals is set, or with a dash left to the system again. -/
def withTrap (action : String) (s : Shell) (name : String) : Shell :=
  match Condition.signalNumber name with
  | none => s
  | some signal =>
    let others := s.traps.filter (·.1 != signal)
    { s with traps := if action = "-" then others else (signal, action) :: others }

def changeDirectory (path : String) : Work Nat := do
  let s ← get
  match s.world.tree.find s.directory path with
  | .ok (p, .directory) =>
    set { s with directory := p }
    return 0
  | _ =>
    grumble s!"cd: can't cd to {path}"
    return 2

def testCondition (command : String) (words : List String) : Work Nat := do
  match Condition.holds (← get) words with
  | .ok true => return 0
  | .ok false => return 1
  | .error flaw =>
    grumble (command ++ ": " ++ flaw.text)
    return 2

/-- Prints arguments by a format. An argument that should be a number and is none makes a failure. -/
def printFormatted (format : String) (arguments : List String) : Work Nat := do
  put 1 (formatBytes format arguments)
  match badNumbers format arguments with
  | [] => return 0
  | words =>
    words.forM fun w => grumble s!"printf: {w}: expected numeric value"
    return 1

/-- Reads a line into variables; the end of the input is a failure. -/
def readLine (arguments : List String) : Work Nat := do
  let (line, ended) ← takeLine 0
  let names := arguments.filter fun a => a.toList.head? ≠ some '-'
  modify fun s => readInto (separators s) names (textOfBytes line).toList s
  return if ended then 0 else 1

/-- Carries out a command of the shell; the result is its status. -/
def builtin (name : String) (arguments : List String) : Work Nat := do
  let s ← get
  match name with
  | "false" => return 1
  | "echo" =>
    put 1 (echoBytes arguments)
    return 0
  | "printf" =>
    match arguments with
    | format :: rest => printFormatted format rest
    | [] =>
      grumble "printf: usage: printf format [arg ...]"
      return 2
  | "pwd" =>
    put 1 (utf8 (placeText s.directory ++ "\n"))
    return 0
  | "cd" => changeDirectory (arguments.headD ((s.valueOf? "HOME").getD "/"))
  | "exit" => throw (.exit ((← numberArgument "exit" s.status arguments) % 256))
  | "return" => throw (.back ((← numberArgument "return" s.status arguments) % 256))
  | "break" => throw (.leaveLoop (max 1 (← numberArgument "break" 1 arguments)))
  | "continue" => throw (.nextRound (max 1 (← numberArgument "continue" 1 arguments)))
  | "shift" =>
    let n ← numberArgument "shift" 1 arguments
    if s.arguments.length < n then fail "shift: can't shift that many"
    set { s with arguments := s.arguments.drop n }
    return 0
  | "export" =>
    arguments.forM fun a => do
      let name ← declare a
      modify (handOn name)
    return 0
  | "readonly" =>
    arguments.forM fun a => do
      let name ← declare a
      modify fun s => { s with constants := name :: s.constants }
    return 0
  | "local" =>
    arguments.forM fun a => do
      makeOwn (splitAssignment a).1
      let _ ← declare a
    return 0
  | "unset" =>
    set { s with
      bindings := s.bindings.filter fun v => !arguments.contains v.1
      functions := s.functions.filter fun f => !arguments.contains f.1 }
    return 0
  | "set" =>
    setOptions arguments.length arguments
    return 0
  | "read" => readLine arguments
  | "test" => testCondition "test" arguments
  | "[" =>
    if arguments.getLast? = some "]" then testCondition "[" arguments.dropLast
    else
      grumble "[: missing ]"
      return 2
  | "wait" =>
    let jobs := arguments.filterMap fun a => a.toNat?.bind fun n => s.jobs.lookup n
    return if arguments.isEmpty then 0 else jobs.getLastD 127
  | "trap" =>
    match arguments with
    | action :: names =>
      set (names.foldl (withTrap action) s)
      return 0
    | [] => return 0
  | _ => return 0

end CycleCost.Host.Shell
