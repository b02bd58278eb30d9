/-
Module: CycleCost.Host.Shell.Expansion
Purpose: The fields that the words of a command expand to. Scripts inside words are run by a function that is
  given, so that expansion is a recursion on the words alone.
Main exports: Shell.isolated, Shell.captured, Shell.Part, Shell.expandAll, Shell.fields
-/
import CycleCost.Host.Script.Arithmetic
import CycleCost.Host.Script.Pattern
import CycleCost.Host.Shell.State

namespace CycleCost.Host.Shell

open Script

/-! ### Running a part of a script apart -/

/-- Runs a part of a script on a copy of the shell: only what it did to the host stays. The result is its
    status; a signal or the time limit ends the whole process. -/
def isolated (body : Work Unit) : Work Nat := ExceptT.mk fun before =>
  let (outcome, after) := body.run before
  let ended (status : Nat) : Except Stop Nat × Shell :=
    (.ok status, { before with world := after.world, status })
  match outcome with
  | .ok () => ended after.status
  | .error (.exit status) => ended status
  | .error (.back status) => ended status
  | .error .expired => (.error .expired, after)
  | .error (.signal n) => (.error (.signal n), after)
  | .error (.leaveLoop _) => ended 0
  | .error (.nextRound _) => ended 0

/-- A number under which no output is kept yet. -/
def freshSlot (w : World) : Nat := w.slots.foldl (fun n slot => max n (slot.1 + 1)) 0

/-- The output of a part of a script, which runs on a copy of the shell. -/
def captured (body : Work Unit) : Work (List UInt8) := do
  let n := freshSlot (← get).world
  let status ← isolated do
    modify fun s => s.withChannel 1 (.slot n)
    body
  let s ← get
  set { s with
    world := { s.world with slots := s.world.slots.filter (·.1 != n) }
    status }
  return (s.world.slots.lookup n).getD []

/-! ### Parts and fields -/

inductive Part where
  | solid (isQuoted : Bool) (text : String)
  /-- It is cut into fields. -/
  | soft (text : String)
  /-- The end of one field and the start of the next. -/
  | separate

def separators (s : Shell) : List Char := ((s.valueOf? "IFS").getD " \t\n").toList

/-- A field whose characters say whether they are quoted. -/
abbrev Field := List (Char × Bool)

def fieldText (f : Field) : String := String.ofList (f.map (·.1))

/-- Fields that have been completed, the latest first, and the one that has been begun. -/
structure Cutting where
  done : List Field
  current : Option Field

namespace Cutting

/-- The field that has been begun is completed. -/
def close (c : Cutting) : Cutting :=
  match c.current with
  | some f => ⟨f :: c.done, none⟩
  | none => c

def extend (c : Cutting) (isQuoted : Bool) (text : String) : Cutting :=
  { c with current := some (c.current.getD [] ++ text.toList.map fun ch => (ch, isQuoted)) }

/-- One character of a soft part: blanks in a row cut once, and any other separator cuts each time. -/
def softChar (cuts : List Char) (c : Cutting) (ch : Char) : Cutting :=
  if cuts.contains ch then
    if ch = ' ' || ch = '\t' || ch = '\n' then c.close
    else (if c.current.isNone then c.extend false "" else c).close
  else c.extend false ch.toString

def addPart (cuts : List Char) (c : Cutting) : Part → Cutting
  | .solid isQuoted text => c.extend isQuoted text
  | .soft text => text.toList.foldl (softChar cuts) c
  | .separate => c.close

end Cutting

def cutFields (cuts : List Char) (parts : List Part) : List Field :=
  (parts.foldl (Cutting.addPart cuts) ⟨[], none⟩).close.done.reverse

/-! ### Names of files -/

/-- The parts of a field between its separators of directories. -/
def components : Field → List Field
  | [] => [[]]
  | (c, isQuoted) :: rest =>
    if c = '/' then [] :: components rest
    else match components rest with
      | [] => [[(c, isQuoted)]]
      | part :: parts => ((c, isQuoted) :: part) :: parts

/-- Whether a part of a path stands for the names that it matches. -/
def isWild (f : Field) : Bool := f.any fun (c, isQuoted) => !isQuoted && (c = '*' || c = '?' || c = '[')

/-- The names in a directory that a part of a path matches. A hidden one is matched only by a pattern that
    starts with its dot. -/
def matchingNames (names : List String) (f : Field) : List String :=
  let isHidden (s : List Char) : Bool := s.head? == some '.'
  names.filter fun name =>
    matchesAll (pattern f) name.toList && (!isHidden name.toList || isHidden (f.map (·.1)))

/-- The paths behind the ones given, one part further on. -/
def further (t : Tree) (directory : Place) (paths : List String) (f : Field) : List String :=
  if isWild f then
    paths.flatMap fun path =>
      match t.directoryAt directory (if path.isEmpty then "." else path) with
      | .ok p => (matchingNames (t.children p) f).map (path ++ ·)
      | .error _ => []
  else paths.map (· ++ fieldText f)

def pathsOf (t : Tree) (directory : Place) : List String → List Field → List String
  | paths, [] => paths
  | paths, [f] => further t directory paths f
  | paths, f :: rest => pathsOf t directory ((further t directory paths f).map (· ++ "/")) rest

/-- The paths that a field stands for; a field that matches nothing stands for itself. -/
def filesOf (s : Shell) (f : Field) : List String :=
  if isWild f then
    let found := (pathsOf s.world.tree s.directory [""] (components f)).filter fun path =>
      (s.world.tree.find s.directory path).isOk
    if found.isEmpty then [fieldText f] else found.mergeSort (· ≤ ·)
  else [fieldText f]

/-- The text of the parts of a word in one piece. -/
def joined (parts : List Part) : String :=
  String.join (parts.map fun
    | .solid _ text => text
    | .soft text => text
    | .separate => " ")

def characters (parts : List Part) : List (Char × Bool) :=
  parts.flatMap fun
    | .solid isQuoted text => text.toList.map fun c => (c, isQuoted)
    | .soft text => text.toList.map fun c => (c, false)
    | .separate => [(' ', true)]

def valuePart (isQuoted : Bool) (value : String) : List Part :=
  if isQuoted then [.solid true value] else [.soft value]

/-! ### Parameters -/

/-- The value of a parameter; the arguments together are one text. -/
def parameter? (s : Shell) (name : String) : Option String :=
  match name with
  | "#" => some (toString s.arguments.length)
  | "?" => some (toString s.status)
  | "$" => some (toString s.process)
  | "-" => some ""
  | "!" => s.jobs.head?.map fun job => toString job.1
  | "PWD" => some (placeText s.directory)
  | "@" | "*" => if s.arguments.isEmpty then none else some (" ".intercalate s.arguments)
  | name =>
    match name.toNat? with
    | some 0 => some s.name
    | some n => s.arguments[n - 1]?
    | none => s.valueOf? name

/-- The arguments as parts of a word, each a field of its own. -/
def argumentParts (s : Shell) (isQuoted : Bool) : List Part :=
  (s.arguments.map fun a => if isQuoted then Part.solid true a else Part.soft a).intersperse .separate

/-- A parameter whose value is needed has none. -/
def missingParameter (name text : String) : Work (List Part) :=
  fail (name ++ ": " ++ if text.isEmpty then "parameter not set" else text)

/-- Whether a parameter always has a value, be it an empty one. -/
def isAlwaysSet (name : String) : Bool := name = "@" || name = "*"

/-- The parts of a parameter after a change, given how its word expands. -/
def changed (isQuoted : Bool) (name : String) (change : Change) (word : Work (List Part)) :
    Work (List Part) := do
  let s ← get
  let value := parameter? s name
  let isThere (ifEmpty : Bool) : Bool := value.any fun v => !(ifEmpty && v.isEmpty)
  let shown := valuePart isQuoted (value.getD "")
  let instead : Work (List Part) := do
    let parts ← word
    return if isQuoted then [.solid true (joined parts)] else parts
  match change with
  | .keep =>
    if s.modes.rejectsUnset && value.isNone && !isAlwaysSet name then missingParameter name ""
    else if name = "@" then return argumentParts s isQuoted
    else if name = "*" && !isQuoted then return argumentParts s false
    else return shown
  | .length =>
    let n := if name = "@" || name = "*" then s.arguments.length else (value.getD "").length
    return valuePart isQuoted (toString n)
  | .fallback ifEmpty => if isThere ifEmpty then return shown else instead
  | .alternative ifEmpty => if isThere ifEmpty then instead else return valuePart isQuoted ""
  | .assign ifEmpty =>
    if isThere ifEmpty then return shown
    else
      let text := joined (← word)
      modify fun s => s.withVariable name text
      return valuePart isQuoted text
  | .demand ifEmpty =>
    if isThere ifEmpty then return shown else missingParameter name (joined (← word))
  | .dropStart longest =>
    let marks := pattern (characters (← word))
    return valuePart isQuoted (String.ofList (cutStart marks longest (value.getD "").toList))
  | .dropEnd longest =>
    let marks := pattern (characters (← word))
    return valuePart isQuoted (String.ofList (cutEnd marks longest (value.getD "").toList))

/-- The value of an arithmetic expression. -/
def calculated (text : String) : Work String := do
  let s ← get
  match Expression.parse text.toList with
  | none => fail s!"arithmetic expression: expecting primary: \"{text}\""
  | some e =>
    match e.value s.bindings with
    | none => fail s!"arithmetic expression: division by zero: \"{text}\""
    | some (n, bindings) =>
      set { s with bindings }
      return toString n

/-- Output as it stands in a word: without the line breaks at its end. -/
def outputText (bytes : List UInt8) : String :=
  String.ofList ((textOfBytes bytes).toList.reverse.dropWhile (· = '\n')).reverse

/-! ### Words -/

mutual

/-- The parts of an expanded piece; `run` runs the text of a script. -/
def expandPiece (run : String → Work Unit) : Piece → Work (List Part)
  | .plain text => return [.solid false text]
  | .quoted text => return [.solid true text]
  | .parameter isQuoted name change word => changed isQuoted name change (expandAll run word)
  | .arithmetic isQuoted expression => do
    return valuePart isQuoted (← calculated (joined (← expandAll run expression)))
  | .output isQuoted script => do
    return valuePart isQuoted (outputText (← captured (run script)))

def expandAll (run : String → Work Unit) : List Piece → Work (List Part)
  | [] => return []
  | piece :: rest => do
    let first ← expandPiece run piece
    return first ++ (← expandAll run rest)

end

def fields (run : String → Work Unit) (words : List Word) : Work (List String) := do
  let lists ← words.mapM fun w => do
    let parts ← expandAll run w
    let s ← get
    return (cutFields (separators s) parts).flatMap (filesOf s)
  return lists.flatten

/-- A variable is set, unless it has to keep its value. -/
def assign (name value : String) : Work Unit := do
  if (← get).constants.contains name then fail s!"{name}: is read only"
  else modify fun s => s.withVariable name value

/-- Assignments to variables, one after another; the result shows them. -/
def assignAll (run : String → Work Unit) (assignments : List (String × Word)) : Work (List String) :=
  assignments.mapM fun (name, w) => do
    let value := joined (← expandAll run w)
    assign name value
    return s!"{name}={value}"

def fitsAny (run : String → Work Unit) (text : String) (patterns : List Word) : Work Bool :=
  patterns.anyM fun w => do
    return matchesAll (pattern (characters (← expandAll run w))) text.toList

end CycleCost.Host.Shell
