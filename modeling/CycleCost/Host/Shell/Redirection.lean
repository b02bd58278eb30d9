/-
Module: CycleCost.Host.Shell.Redirection
Purpose: Leading the descriptors of a command elsewhere while it runs.
Main exports: Shell.redirectAll, Shell.redirected
-/
import CycleCost.Host.Shell.Expansion

namespace CycleCost.Host.Shell

open Script

/-- The bytes of a file. -/
def contentAt (s : Shell) (path : String) : Except Trouble (List UInt8) := do
  s.world.tree.read (← s.world.tree.find s.directory path).1

/-- The files after a path has been opened for writing, and where writing leads. -/
def openedForWriting (t : Tree) (directory : Place) (keepContent : Bool) (path : String) :
    Except Trouble (Tree × Channel) := do
  let p ← t.locate directory path
  match t.node? p with
  | some .device => return (t, .nowhere)
  | some (.file _ _) =>
    if keepContent then return (t, .file p)
    else
      let t ← t.write p []
      return (t, .file p)
  | _ =>
    let t ← t.write p []
    return (t, .file p)

/-- A path is opened for reading. -/
def openInput (path : String) : Work (Option Channel) := do
  match contentAt (← get) path with
  | .ok bytes => return some (.source bytes)
  | .error _ =>
    grumble s!"cannot open {path}: No such file"
    return none

/-- A path is opened for writing. -/
def openOutput (keepContent : Bool) (path : String) : Work (Option Channel) := do
  let s ← get
  match openedForWriting s.world.tree s.directory keepContent path with
  | .ok (t, c) =>
    set (s.withTree t)
    return some c
  | .error e =>
    let why := if e = .missing then "Directory nonexistent" else e.text
    grumble s!"cannot create {path}: {why}"
    return none

/-- The channel of another descriptor, given by its number; a dash closes. -/
def duplicated (s : Shell) (number : String) : Channel :=
  if number = "-" then .nowhere else s.channel (leadingInteger number).toNat

/-- Where a redirection leads; none when that cannot be opened. -/
def target (run : String → Work Unit) (r : Redirect) : Work (Option Channel) := do
  let text := joined (← expandAll run r.target)
  match r.direction with
  | .here => return some (.source (utf8 text))
  | .duplicate => return some (duplicated (← get) text)
  | .input => openInput text
  | .output => openOutput false text
  | .append => openOutput true text

/-- Leads descriptors elsewhere, one after another up to the first that cannot be; the result says whether
    all of them could. -/
def redirectAll (run : String → Work Unit) : List Redirect → Work Bool
  | [] => return true
  | r :: rest => do
    match ← target run r with
    | none => return false
    | some c =>
      modify fun s => s.withChannel r.descriptor c
      redirectAll run rest

/-- The shell with the redirected descriptors led back to where they led before. -/
def ledBack (before : List (Nat × Channel)) (redirects : List Redirect) (s : Shell) : Shell :=
  redirects.foldl
    (fun s r => s.withChannel r.descriptor ((before.lookup r.descriptor).getD .nowhere)) s

/-- The status of a step with descriptors led elsewhere while it runs. When one of them cannot be, the step is
    left out, and a vital one ends the script. -/
def redirected (run : String → Work Unit) (isVital : Bool) (redirects : List Redirect)
    (body : Work Nat) : Work Nat := do
  let before := (← get).channels
  let status ←
    if ← redirectAll run redirects then body
    else if isVital then throw (.exit 2)
    else pure 2
  modify (ledBack before redirects)
  return status

end CycleCost.Host.Shell
