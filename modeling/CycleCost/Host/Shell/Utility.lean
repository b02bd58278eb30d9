/-
Module: CycleCost.Host.Shell.Utility
Purpose: The programs that a simulated host brings along: copying, moving and removing files, printing them, and
  waiting.
Main exports: Utility.names, Utility.run
-/
import CycleCost.Decimal.Numeral
import CycleCost.Host.Script.Arithmetic
import CycleCost.Host.Shell.State
import CycleCost.Text

namespace CycleCost.Host.Utility

open Shell

/-- The utilities of a host. The shell itself is not among them. -/
def names : List String :=
  ["basename", "cat", "chmod", "cp", "cut", "dirname", "env", "expr", "false", "grep", "head", "install",
    "ln", "ls", "mkdir", "mv", "rm", "rmdir", "seq", "sleep", "sort", "tail", "tee", "touch", "tr", "true",
    "uname", "wc"]

/-- Arguments apart: the letters of the options in front, and the rest. -/
def options : List String → List Char × List String
  | [] => ([], [])
  | "--" :: rest => ([], rest)
  | a :: rest =>
    match a.toList with
    | '-' :: c :: letters =>
      let (more, others) := options rest
      (c :: letters ++ more, others)
    | _ => ([], a :: rest)

def complaint (utility text : String) (t : Trouble) : Work Nat := do
  complain s!"{utility}: {text}: {t.text}"
  return 1

def lookUp (path : String) : Work (Except Trouble (Place × Node)) := do
  let s ← get
  return s.world.tree.find s.directory path

def placeOf (path : String) : Work (Except Trouble Place) := do
  let s ← get
  return s.world.tree.locate s.directory path

/-- A change of the files; a failed one leaves them alone. -/
def change (act : Tree → Except Trouble Tree) : Work (Except Trouble Unit) := do
  let s ← get
  match act s.world.tree with
  | .ok t => do
    set (s.withTree t)
    return .ok ()
  | .error e => return .error e

/-- The worst status of a step for every argument. -/
def forEach (arguments : List String) (step : String → Work Nat) : Work Nat :=
  arguments.foldlM (fun worst a => return max worst (← step a)) 0

def lastName (path : String) : String :=
  match (Path.names path).filter (· ≠ "") with
  | [] => "/"
  | parts => parts.getLastD ""

/-- The target of a copy or move: within a directory under the name of the source. -/
def targetPlace (source target : String) : Work (Except Trouble Place) := do
  match ← lookUp target with
  | .ok (p, .directory) => return .ok (p ++ [lastName source])
  | .ok (p, _) => return .ok p
  | .error _ => placeOf target

/-- Copies one file. -/
def copyOne (source target : String) : Work Nat := do
  match ← lookUp source with
  | .error e => complaint "cp" s!"cannot stat '{source}'" e
  | .ok (_, .directory) =>
    complain s!"cp: -r not specified; omitting directory '{source}'"
    return 1
  | .ok (_, node) =>
    match ← targetPlace source target with
    | .error e => complaint "cp" s!"cannot create regular file '{target}'" e
    | .ok p =>
      let (content, executable) := match node with
        | .file content executable => (content, executable)
        | _ => ([], true)
      let copied ← change fun t =>
        match t.node? p with
        | none => do
          t.checkDirectory p.dropLast
          return t.put p (.file content executable)
        | some _ => t.write p content
      match copied with
      | .ok () => return 0
      | .error e => complaint "cp" s!"cannot create regular file '{target}'" e

def moveOne (source target : String) : Work Nat := do
  match ← lookUp source with
  | .error e => complaint "mv" s!"cannot stat '{source}'" e
  | .ok (from_, _) =>
    match ← targetPlace source target with
    | .error e => complaint "mv" s!"cannot move '{source}' to '{target}'" e
    | .ok p =>
      modify fun s => s.withTree (s.world.tree.move from_ p)
      return 0

/-- Several sources into one target. -/
def eachSource (utility : String) (step : String → String → Work Nat) (arguments : List String) :
    Work Nat :=
  match arguments.reverse with
  | target :: first :: more => forEach (first :: more).reverse (step · target)
  | _ => do
    complain s!"{utility}: missing file operand"
    return 1

/-- Removes one file, or with `r` whatever stands there; with `f` a missing one is no failure. -/
def removeOne (letters : List Char) (path : String) : Work Nat := do
  match ← lookUp path with
  | .error e =>
    if 'f' ∈ letters then return 0 else complaint "rm" s!"cannot remove '{path}'" e
  | .ok (p, node) =>
    if node = .directory && !('r' ∈ letters || 'R' ∈ letters) then
      complaint "rm" s!"cannot remove '{path}'" .isDirectory
    else
      modify fun s => s.withTree (s.world.tree.removeAll p)
      return 0

def makeOne (letters : List Char) (path : String) : Work Nat := do
  let s ← get
  let made ←
    if 'p' ∈ letters then change (·.makeDirectories (Tree.spelledPlace s.directory path))
    else match s.world.tree.locate s.directory path with
      | .ok p => change (·.makeDirectory p)
      | .error e => pure (.error e)
  match made with
  | .ok () => return 0
  | .error e => complaint "mkdir" s!"cannot create directory '{path}'" e

def removeDirectoryOne (path : String) : Work Nat := do
  match ← placeOf path with
  | .error e => complaint "rmdir" s!"failed to remove '{path}'" e
  | .ok p =>
    match ← change (·.removeDirectory p) with
    | .ok () => return 0
    | .error e => complaint "rmdir" s!"failed to remove '{path}'" e

/-- Makes sure that one file exists. -/
def touchOne (path : String) : Work Nat := do
  match ← lookUp path with
  | .ok _ => return 0
  | .error .missing =>
    match ← placeOf path with
    | .error e => complaint "touch" s!"cannot touch '{path}'" e
    | .ok p =>
      match ← change (·.write p []) with
      | .ok () => return 0
      | .error e => complaint "touch" s!"cannot touch '{path}'" e
  | .error e => complaint "touch" s!"cannot touch '{path}'" e

/-- Whether a mode, in letters or octal digits, lets a file run; none when it does not say. -/
def modeRuns (mode : String) : Option Bool :=
  let s := mode.toList
  if !s.isEmpty && s.all Script.isOctal then
    some ((Script.octal s) % 2 = 1 || (Script.octal s / 64) % 2 = 1)
  else if s.contains 'x' then
    if s.contains '-' then some false else some true
  else if s.contains '=' then some false
  else none

/-- Changes the permission to run of one file. -/
def changeModeOne (mode path : String) : Work Nat := do
  match ← lookUp path with
  | .error e => complaint "chmod" s!"cannot access '{path}'" e
  | .ok (p, .file content _) =>
    match modeRuns mode with
    | some executable =>
      modify fun s => s.withTree (s.world.tree.put p (.file content executable))
      return 0
    | none => return 0
  | .ok _ => return 0

/-- The bytes of the files, or of the input when none is named; a dash names the input. -/
def inputs (utility : String) (paths : List String) : Work (List UInt8 × Nat) :=
  if paths.isEmpty then return (← takeAll 0, 0)
  else paths.foldlM
    (fun (bytes, status) path => do
      if path = "-" then return (bytes ++ (← takeAll 0), status)
      match ← lookUp path with
      | .error e => return (bytes, max status (← complaint utility path e))
      | .ok (p, _) =>
        match (← get).world.tree.read p with
        | .ok content => return (bytes ++ content, status)
        | .error e => return (bytes, max status (← complaint utility path e)))
    ([], 0)

def byteLines : List UInt8 → List (List UInt8)
  | [] => []
  | b :: rest =>
    if b = 10 then [b] :: byteLines rest
    else match byteLines rest with
      | [] => [[b]]
      | line :: lines => (b :: line) :: lines

/-- The number behind an option such as `-n 3`, `-n3` or `-3`, with the arguments that are left. -/
def numberOption (letter : Char) (default : Nat) : List String → Nat × List String
  | [] => (default, [])
  | a :: rest =>
    match a.toList with
    | '-' :: c :: digits =>
      if c = letter then
        match digits, rest with
        | [], n :: rest => ((Script.leadingInteger n).toNat, rest)
        | digits, rest => ((Script.leadingInteger (String.ofList digits)).toNat, rest)
      else if c.isDigit then ((Script.leadingInteger (String.ofList (c :: digits))).toNat, rest)
      else
        let (n, others) := numberOption letter default rest
        (n, a :: others)
    | _ =>
      let (n, others) := numberOption letter default rest
      (n, a :: others)

/-- The nanoseconds of a time such as `3`, `0.5` or `2m`. -/
def waitingTime (s : String) : Option Nat :=
  let (body, unit) := match s.toList.getLast? with
    | some 's' => (s.toList.dropLast, 1)
    | some 'm' => (s.toList.dropLast, 60)
    | some 'h' => (s.toList.dropLast, 3600)
    | some 'd' => (s.toList.dropLast, 86400)
    | _ => (s.toList, 1)
  let whole := body.takeWhile Char.isDigit
  let fraction := match body.drop whole.length with
    | '.' :: digits => some digits
    | [] => some []
    | _ => none
  fraction.bind fun digits =>
    if digits.all Char.isDigit && !(whole.isEmpty && digits.isEmpty) then
      let padded := (digits ++ List.replicate 9 '0').take 9
      some ((Decimal.digitsValue whole * 1000000000 + Decimal.digitsValue padded) * unit)
    else none

def numbers (first step last : Int) : List Int :=
  if step = 0 then []
  else (List.range (((last - first) / step + 1).toNat)).map fun n => first + step * (n : Nat)

/-- Waits. -/
def sleep (arguments : List String) : Work Nat := do
  match arguments.mapM waitingTime with
  | some times =>
    pass (times.foldl (· + ·) 0)
    return 0
  | none =>
    complain "sleep: invalid time interval"
    return 1

def count (letters : List Char) (bytes : List UInt8) : Nat :=
  if 'l' ∈ letters then bytes.count 10
  else if 'w' ∈ letters then
    (Text.split ' ' ((Script.textOfBytes bytes).toList.map fun c => if Text.isBlank c then ' ' else c)).countP
      fun w => !w.isEmpty
  else bytes.length

def directoryName (path : String) : String :=
  match Path.names path with
  | [_] => "."
  | parts =>
    let front := "/".intercalate parts.dropLast
    if front.isEmpty then "/" else front

def matchingLines (letters : List Char) (text : String) (bytes : List UInt8) : List (List UInt8) :=
  (byteLines bytes).filter fun line =>
    Text.contains text.toList (Script.textOfBytes line).toList != decide ('v' ∈ letters)

def setCharacters : List Char → List Char
  | a :: '-' :: b :: rest =>
    (List.range (b.toNat + 1 - a.toNat)).map (fun n => Char.ofNat (a.toNat + n)) ++ setCharacters rest
  | '\\' :: 'n' :: rest => '\n' :: setCharacters rest
  | a :: rest => a :: setCharacters rest
  | [] => []

/-- A text with the characters of one set replaced by those of another, or removed. -/
def exchanged (letters : List Char) (sets : List String) (s : List Char) : List Char :=
  let first := setCharacters (sets.headD "").toList
  let second := setCharacters ((sets.drop 1).headD "").toList
  if 'd' ∈ letters then s.filter fun c => !first.contains c
  else s.map fun c =>
    match first.idxOf? c with
    | some n => (second[n]?).getD (second.getLastD c)
    | none => c

def selectedField (arguments : List String) (line : List Char) : List Char :=
  let option (letter : Char) : Option String :=
    match arguments.findIdx? fun a => ['-', letter].isPrefixOf a.toList with
    | some n =>
      match (arguments[n]?).map (·.toList.drop 2) with
      | some [] => arguments[n + 1]?
      | other => other.map String.ofList
    | none => none
  let separator := ((option 'd').bind (·.toList.head?)).getD '\t'
  let n := (Script.leadingInteger ((option 'f').getD "1")).toNat
  let parts := Text.split separator line
  if parts.length = 1 then line else (parts[n - 1]?).getD []

/-- The value of an expression of one operand, or of two with an operator between them. -/
def evaluated : List String → Option String
  | [a] => some a
  | [a, operator, b] =>
    match operator with
    | "=" => some (if a = b then "1" else "0")
    | _ => do
      let m ← Script.wholeInteger a
      let n ← Script.wholeInteger b
      return toString (← Script.Expression.apply operator m n)
  | _ => none

/-- Prints the value of an expression; one that is empty or zero is a failure. -/
def evaluate (arguments : List String) : Work Nat := do
  match evaluated arguments with
  | some v =>
    put 1 (Script.utf8 (v ++ "\n"))
    return if v.isEmpty || v = "0" then 1 else 0
  | none =>
    complain "expr: syntax error"
    return 2

/-- Arguments without the options that set the mode of a file. -/
def withoutModes : List String → List String
  | "-m" :: _ :: rest => withoutModes rest
  | a :: rest => if a.toList.head? = some '-' then withoutModes rest else a :: withoutModes rest
  | [] => []

/-- Copies one file as a program. -/
def installOne (source target : String) : Work Nat := do
  let status ← copyOne source target
  match ← lookUp target with
  | .ok (p, .directory) => return max status (← changeModeOne "755" (placeText p ++ "/" ++ lastName source))
  | _ => return max status (← changeModeOne "755" target)

/-- Runs a utility with its arguments; the result is its exit status. -/
def run (name : String) (arguments : List String) : Work Nat := do
  let (letters, others) := options arguments
  match name with
  | "true" => return 0
  | "false" => return 1
  | "cp" => eachSource "cp" copyOne others
  | "ln" => eachSource "ln" copyOne others
  | "install" => eachSource "install" installOne (withoutModes arguments)
  | "mv" => eachSource "mv" moveOne others
  | "rm" => forEach others (removeOne letters)
  | "mkdir" => forEach others (makeOne letters)
  | "rmdir" => forEach others removeDirectoryOne
  | "touch" => forEach others touchOne
  | "chmod" =>
    match arguments with
    | mode :: paths => forEach paths (changeModeOne mode)
    | [] => return 1
  | "sleep" => sleep arguments
  | "expr" => evaluate arguments
  | "cat" =>
    let (bytes, status) ← inputs "cat" others
    put 1 bytes
    return status
  | "tee" =>
    let bytes ← takeAll 0
    put 1 bytes
    forEach others fun path => do
      match ← placeOf path with
      | .error e => complaint "tee" path e
      | .ok p =>
        match ← change (·.write p bytes) with
        | .ok () => return 0
        | .error e => complaint "tee" path e
  | "head" =>
    if 'c' ∈ letters then
      let (n, paths) := numberOption 'c' 0 arguments
      let (bytes, status) ← inputs "head" paths
      put 1 (bytes.take n)
      return status
    else
      let (n, paths) := numberOption 'n' 10 arguments
      let (bytes, status) ← inputs "head" paths
      put 1 ((byteLines bytes).take n).flatten
      return status
  | "tail" =>
    let (n, paths) := numberOption 'n' 10 arguments
    let (bytes, status) ← inputs "tail" paths
    let lines := byteLines bytes
    put 1 (lines.drop (lines.length - n)).flatten
    return status
  | "wc" =>
    let (bytes, status) ← inputs "wc" others
    let label := match others with
      | [path] => " " ++ path
      | _ => ""
    put 1 (Script.utf8 (toString (count letters bytes) ++ label ++ "\n"))
    return status
  | "sort" =>
    let (bytes, status) ← inputs "sort" others
    let lines := (Text.lines (Script.textOfBytes bytes).toList).map String.ofList
    put 1 (Script.utf8 (String.join ((lines.mergeSort (· ≤ ·)).map (· ++ "\n"))))
    return status
  | "tr" =>
    let bytes ← takeAll 0
    put 1 (Script.utf8 (String.ofList (exchanged letters others (Script.textOfBytes bytes).toList)))
    return 0
  | "cut" =>
    let bytes ← takeAll 0
    let lines := Text.lines (Script.textOfBytes bytes).toList
    put 1 (Script.utf8 (String.join (lines.map fun l =>
      String.ofList (selectedField arguments l) ++ "\n")))
    return 0
  | "grep" =>
    match others with
    | [] => return 2
    | text :: paths =>
      let (bytes, status) ← inputs "grep" paths
      let lines := matchingLines letters text bytes
      if !('q' ∈ letters) then
        put 1 (if 'c' ∈ letters then Script.utf8 (toString lines.length ++ "\n") else lines.flatten)
      return if status ≠ 0 then 2 else if lines.isEmpty then 1 else 0
  | "ls" =>
    let s ← get
    let path := others.headD "."
    match s.world.tree.find s.directory path with
    | .error e =>
      let _ ← complaint "ls" s!"cannot access '{path}'" e
      return 2
    | .ok (p, .directory) =>
      let visible := (s.world.tree.children p).filter fun n => n.toList.head? ≠ some '.'
      put 1 (Script.utf8 (String.join ((visible.mergeSort (· ≤ ·)).map (· ++ "\n"))))
      return 0
    | .ok _ =>
      put 1 (Script.utf8 (others.headD "" ++ "\n"))
      return 0
  | "seq" =>
    let ns := arguments.map Script.leadingInteger
    let list := match ns with
      | [last] => numbers 1 1 last
      | [first, last] => numbers first 1 last
      | [first, step, last] => numbers first step last
      | _ => []
    put 1 (Script.utf8 (String.join (list.map fun n => toString n ++ "\n")))
    return 0
  | "basename" =>
    let base := lastName (others.headD "")
    let cut := (others.drop 1).headD ""
    let text := if !cut.isEmpty && base ≠ cut && base.endsWith cut then
      String.ofList (base.toList.take (base.length - cut.length)) else base
    put 1 (Script.utf8 (text ++ "\n"))
    return 0
  | "dirname" =>
    put 1 (Script.utf8 (directoryName (others.headD "") ++ "\n"))
    return 0
  | "uname" =>
    put 1 (Script.utf8 "Linux\n")
    return 0
  | "env" =>
    let s ← get
    let shown := s.exported.filterMap fun n => (s.valueOf? n).map fun v => s!"{n}={v}\n"
    put 1 (Script.utf8 (String.join shown))
    return 0
  | _ =>
    complain s!"{name}: not found"
    return 127

end CycleCost.Host.Utility
