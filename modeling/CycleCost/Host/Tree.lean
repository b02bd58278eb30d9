/-
Module: CycleCost.Host.Tree
Purpose: The files of a simulated host, by their places. Links do not exist, so a place is a list of names.
Main exports: Trouble, Node, Tree, Tree.locate, Tree.read, Tree.write, Tree.makeDirectory, Tree.remove
-/
import CycleCost.Path

namespace CycleCost.Host

/-- Why an operation on files fails. -/
inductive Trouble where
  | missing
  | badFormat
  | denied
  | exists
  | notDirectory
  | isDirectory
  | notEmpty
  deriving DecidableEq, Repr

namespace Trouble

/-- The wording of a cause. -/
def text : Trouble → String
  | missing => "No such file or directory"
  | badFormat => "Exec format error"
  | denied => "Permission denied"
  | .exists => "File exists"
  | notDirectory => "Not a directory"
  | isDirectory => "Is a directory"
  | notEmpty => "Directory not empty"

/-- The number by which a system call reports it. -/
def number : Trouble → Nat
  | missing => 2
  | badFormat => 8
  | denied => 13
  | .exists => 17
  | notDirectory => 20
  | isDirectory => 21
  | notEmpty => 39

/-- The wording with the number. -/
def message (t : Trouble) : String := s!"{t.text} (os error {t.number})"

end Trouble

/-- What stands at a place. -/
inductive Node where
  | file (content : List UInt8) (executable : Bool)
  | directory
  /-- Always empty, and whatever is written to it is lost. -/
  | device
  /-- A program that the host brings along. -/
  | utility (name : String)
  deriving DecidableEq, Repr

/-- A place: the names from the root on. -/
abbrev Place := List String

def placeText (p : Place) : String := "/" ++ "/".intercalate p

/-- All places but the root, which is always a directory. -/
structure Tree where
  nodes : List (Place × Node)

namespace Tree

def node? (t : Tree) (p : Place) : Option Node :=
  if p.isEmpty then some .directory else (t.nodes.find? (·.1 == p)).map (·.2)

/-- The tree with something else at a place. -/
def put (t : Tree) (p : Place) (n : Node) : Tree :=
  if (t.node? p).isSome then ⟨t.nodes.map fun (q, old) => if q == p then (q, n) else (q, old)⟩
  else ⟨t.nodes ++ [(p, n)]⟩

/-- The names in a directory. -/
def children (t : Tree) (p : Place) : List String :=
  t.nodes.filterMap fun (q, _) =>
    if q.dropLast == p && !q.isEmpty then q.getLast? else none

/-- The tree without a place and all places below it. -/
def removeAll (t : Tree) (p : Place) : Tree := ⟨t.nodes.filter fun (q, _) => !p.isPrefixOf q⟩

/-- A place can be passed through when it is a directory. -/
def checkDirectory (t : Tree) (p : Place) : Except Trouble Unit :=
  match t.node? p with
  | some .directory => .ok ()
  | some _ => .error .notDirectory
  | none => .error .missing

/-- Where a name leads from a directory. -/
def follow (p : Place) (name : String) : Place :=
  if name = "" ∨ name = "." then p else if name = ".." then p.dropLast else p ++ [name]

/-- Follows names from a directory. The last place need not exist. -/
def walk (t : Tree) : Place → List String → Except Trouble Place
  | p, [] => .ok p
  | p, name :: rest => do
    t.checkDirectory p
    walk t (follow p name) rest

def start (directory : Place) (path : String) : Place := if Path.isAbsolute path then [] else directory

/-- The place of a path, seen from a directory. -/
def locate (t : Tree) (directory : Place) (path : String) : Except Trouble Place :=
  if path.isEmpty then .error .missing
  else t.walk (start directory path) (Path.names path)

/-- The place that a path spells, whether or not the directories on the way exist. -/
def spelledPlace (directory : Place) (path : String) : Place :=
  (Path.names path).foldl follow (start directory path)

def find (t : Tree) (directory : Place) (path : String) : Except Trouble (Place × Node) := do
  let p ← t.locate directory path
  match t.node? p with
  | some n => return (p, n)
  | none => throw .missing

def directoryAt (t : Tree) (directory : Place) (path : String) : Except Trouble Place := do
  let p ← t.locate directory path
  t.checkDirectory p
  return p

def read (t : Tree) (p : Place) : Except Trouble (List UInt8) :=
  match t.node? p with
  | some (.file content _) => .ok content
  | some .directory => .error .isDirectory
  | some _ => .ok []
  | none => .error .missing

/-- The tree after writing to a place: a file keeps its permission to run, and a new one has none. -/
def write (t : Tree) (p : Place) (content : List UInt8) : Except Trouble Tree :=
  match t.node? p with
  | some (.file _ executable) => .ok (t.put p (.file content executable))
  | some .directory => .error .isDirectory
  | some .device => .ok t
  | some (.utility _) => .error .denied
  | none => do
    t.checkDirectory p.dropLast
    return t.put p (.file content false)

/-- The tree with more bytes at a place; a place that is no file stays as it is. -/
def append (t : Tree) (p : Place) (content : List UInt8) : Tree :=
  match t.node? p with
  | some (.file earlier executable) => t.put p (.file (earlier ++ content) executable)
  | _ => t

def makeDirectory (t : Tree) (p : Place) : Except Trouble Tree :=
  match t.node? p with
  | some _ => .error .exists
  | none => do
    t.checkDirectory p.dropLast
    return t.put p .directory

def makeDirectories (t : Tree) (p : Place) : Except Trouble Tree :=
  (List.range p.length).foldlM
    (fun t n =>
      match t.node? (p.take (n + 1)) with
      | some .directory => .ok t
      | some _ => .error (if n + 1 = p.length then .exists else .notDirectory)
      | none => .ok (t.put (p.take (n + 1)) .directory))
    t

def remove (t : Tree) (p : Place) : Except Trouble Tree :=
  match t.node? p with
  | some .directory => .error .isDirectory
  | some _ => .ok (t.removeAll p)
  | none => .error .missing

def removeDirectory (t : Tree) (p : Place) : Except Trouble Tree :=
  match t.node? p with
  | some .directory => if (t.children p).isEmpty then .ok (t.removeAll p) else .error .notEmpty
  | some _ => .error .notDirectory
  | none => .error .missing

/-- The tree with everything at and below a place moved to another one. -/
def move (t : Tree) (source target : Place) : Tree :=
  let moved := t.nodes.filterMap fun (q, n) =>
    if source.isPrefixOf q then some (target ++ q.drop source.length, n) else none
  let kept := (t.removeAll source).removeAll target
  ⟨kept.nodes ++ moved⟩

end Tree

end CycleCost.Host
