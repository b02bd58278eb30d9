/-
Module: CycleCost.Document.Toml.Node
Purpose: A TOML document while it is put together from its statements. A table remembers how it came about,
  because that decides which later statements may still add to it.
Main exports: Origin, Node, Walk, assign, openTable, openElement, Node.toDatum
-/
import CycleCost.Document.Datum

namespace CycleCost.Document.Toml

/-- How a table came about. -/
inductive Origin where
  /-- On the way to a table that a header names. -/
  | implied
  /-- On the way to the last part of a dotted key. -/
  | dotted
  /-- By a header of its own. -/
  | explicit
  deriving DecidableEq, Repr

/-- A part of a document. -/
inductive Node where
  | value (d : Datum)
  | table (origin : Origin) (members : List (String × Node))
  /-- Tables under one repeated header, the latest first. -/
  | elements (tables : List (List (String × Node)))
  deriving Inhabited

/-- The members of a table, in the order in which they were made. -/
abbrev Members := List (String × Node)

def member? (ms : Members) (key : String) : Option Node := (ms.find? (·.1 == key)).map (·.2)

/-- The members with another node under a name that is there. -/
def replaceMember (ms : Members) (key : String) (node : Node) : Members :=
  ms.map fun (name, old) => if name == key then (name, node) else (name, old)

/-- A way to follow a path: how missing tables are made, and which ones may be entered. -/
structure Walk where
  made : Origin
  enters : Origin → Bool

namespace Walk

/-- Headers pass through every table. -/
def header : Walk := ⟨.implied, fun _ => true⟩

/-- Dotted keys pass only through tables without a header of their own. -/
def dotted : Walk := ⟨.dotted, fun origin => origin != .explicit⟩

/-- Changes the table at a path. Repeated headers lead into the latest of their tables, and a value ends the
    way. -/
def alter (w : Walk) (change : Origin → Members → Option (Origin × Members)) :
    List String → Origin → Members → Option (Origin × Members)
  | [], origin, ms => change origin ms
  | key :: path, origin, ms =>
    match member? ms key with
    | none => (alter w change path w.made []).map fun (o, inner) =>
        (origin, ms ++ [(key, .table o inner)])
    | some (.table o inner) =>
      if w.enters o then
        (alter w change path o inner).map fun (o, inner) =>
          (origin, replaceMember ms key (.table o inner))
      else none
    | some (.elements (latest :: earlier)) =>
      (alter w change path .explicit latest).map fun (_, inner) =>
        (origin, replaceMember ms key (.elements (inner :: earlier)))
    | some (.elements []) => none
    | some (.value _) => none

end Walk

/-- A new member of a table. A name is given once, and behind a dotted path only to a table that came about
    by dotted keys. -/
def addMember (isDotted : Bool) (key : String) (d : Datum) (origin : Origin) (ms : Members) :
    Option (Origin × Members) :=
  if isDotted && origin != .dotted then none
  else if (member? ms key).isSome then none
  else some (origin, ms ++ [(key, .value d)])

/-- The value of a dotted key, below the table with the given header. -/
def assign (header path : List String) (key : String) (d : Datum) (root : Members) : Option Members :=
  (Walk.header.alter (Walk.dotted.alter (addMember (!path.isEmpty) key d) path) header .explicit root).map
    (·.2)

/-- A header of one table. It may take over a table that was only passed through by other headers. -/
def openTable (path : List String) (key : String) (root : Members) : Option Members :=
  let change (origin : Origin) (ms : Members) : Option (Origin × Members) :=
    match member? ms key with
    | none => some (origin, ms ++ [(key, .table .explicit [])])
    | some (.table .implied inner) => some (origin, replaceMember ms key (.table .explicit inner))
    | some _ => none
  (Walk.header.alter change path .explicit root).map (·.2)

/-- A repeated header: one more table under its name. -/
def openElement (path : List String) (key : String) (root : Members) : Option Members :=
  let change (origin : Origin) (ms : Members) : Option (Origin × Members) :=
    match member? ms key with
    | none => some (origin, ms ++ [(key, .elements [[]])])
    | some (.elements tables) => some (origin, replaceMember ms key (.elements ([] :: tables)))
    | some _ => none
  (Walk.header.alter change path .explicit root).map (·.2)

mutual

/-- The value of a part. -/
def Node.toDatum : Node → Datum
  | .value d => d
  | .table _ members => .table (membersData members)
  | .elements tables => .list (tablesData tables).reverse

def membersData : List (String × Node) → List (String × Datum)
  | [] => []
  | (name, node) :: rest => (name, node.toDatum) :: membersData rest

def tablesData : List (List (String × Node)) → List Datum
  | [] => []
  | ms :: rest => .table (membersData ms) :: tablesData rest

end

end CycleCost.Document.Toml
