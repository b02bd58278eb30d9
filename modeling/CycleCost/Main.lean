/-
Module: CycleCost.Main
Purpose: The program at its edges: it brings the files that a command reads to the host, lets the command run
  there, and hands on what it wrote.
Main exports: main
-/
import CycleCost.Command.Execution
import Std.Time.DateTime.Timestamp

namespace CycleCost

open Command Host

/-- The directory of the host that relative paths start from. -/
def homePlace : Place := ["home"]

/-- The variables of the environment that a command looks at. -/
def knownVariables : List String := ["GIT_SHA", "GITHUB_SHA"]

/-- The variables of the environment that are set. -/
def environment : IO (List (String × String)) :=
  knownVariables.filterMapM fun name => do return (← IO.getEnv name).map fun value => (name, value)

/-- The host before any file has been brought to it. -/
def emptyHost (bindings : List (String × String)) : World :=
  let w := World.boot (("PATH", "/usr/bin:/bin") :: bindings) homePlace
  { w with tree := w.tree.put homePlace .directory }

/-- The host with the directories that lead to a path. -/
def reaching (w : World) (path : String) : World :=
  let place := Tree.spelledPlace w.directory path
  { w with tree := (w.tree.makeDirectories place.dropLast).toOption.getD w.tree }

/-- The host with a file. -/
def holding (w : World) (path text : String) : World :=
  let w := reaching w path
  { w with tree := w.tree.put (Tree.spelledPlace w.directory path) (.file (Script.utf8 text) false) }

/-- Brings a file to the host, if it can be read. -/
def bring (w : World) (path : String) : IO World := do
  match ← (IO.FS.readFile path).toBaseIO with
  | .ok text => return holding w path text
  | .error _ => return w

def hostFor (i : Invocation) : IO World := do
  let w ← i.request.reads.foldlM bring (emptyHost (← environment))
  return i.out.elim w (reaching w)

def hostOf (words : List String) : IO World := do
  match Invocation.read words with
  | .ok i => hostFor i
  | .error _ => return emptyHost []

def takeResult (w : World) (path : String) : IO Unit := do
  if let .ok text := w.contents path then IO.FS.writeFile path text

def handOn (words : List String) (c : Conclusion) : IO Unit := do
  if let .ok { out := some path, .. } := Invocation.read words then takeResult c.console.host path
  IO.print c.console.output
  IO.eprint c.errors

/-- Does what a command line asks for, and gives the exit code. -/
def run (words : List String) : IO UInt32 := do
  let second := (← Std.Time.Timestamp.now).toSecondsSinceUnixEpoch.val.toNat
  let conclusion := execute second words (← hostOf words)
  handOn words conclusion
  return conclusion.verdict.code.toUInt32

end CycleCost

/-- The program. -/
def main (words : List String) : IO UInt32 := CycleCost.run words
