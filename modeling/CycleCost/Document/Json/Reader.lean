/-
Module: CycleCost.Document.Json.Reader
Purpose: Reading a JSON text. The tokens are taken one at a time; the containers that have been opened stand on
  a stack, and each token either fits what is expected next or makes the text malformed. Which float a numeral
  stands for is left open.
Main exports: State, State.step, parse
-/
import CycleCost.Document.Json.Token
import CycleCost.Document.Datum

namespace CycleCost.Document.Json

open Decimal (Numeral)

/-- A container that has been opened, with its contents so far, the latest first. The name of a member has no
    content when its escapes name half a surrogate pair. -/
inductive Frame where
  | list (items : List Datum)
  | table (members : List (Option String × Datum))
  /-- A table in which a member has been named and not yet given a value. -/
  | member (members : List (Option String × Datum)) (name : Option String)

/-- What may come next. -/
inductive Expected where
  | value
  /-- A first item, or the end of an empty list. -/
  | itemOrEnd
  | name
  /-- A first member, or the end of an empty table. -/
  | nameOrEnd
  | colon
  /-- A comma, or the end of the innermost container. -/
  | separator
  /-- Nothing: the text holds this value. -/
  | nothing (value : Datum)

/-- The state between two tokens, the innermost container first. -/
structure State where
  stack : List Frame
  expected : Expected

namespace State

/-- Before the first token. -/
def start : State := ⟨[], .value⟩

/-- The table of the members. A name without content makes it a table that no field can hold. -/
def closeTable (members : List (Option String × Datum)) : Datum :=
  match members.mapM (fun (name, d) => name.map fun s => (s, d)) with
  | some named => .table named.reverse
  | none => .unusable

/-- A value has been completed. -/
def complete (d : Datum) : List Frame → Option State
  | [] => some ⟨[], .nothing d⟩
  | .list items :: rest => some ⟨.list (d :: items) :: rest, .separator⟩
  | .member members name :: rest => some ⟨.table ((name, d) :: members) :: rest, .separator⟩
  | .table _ :: _ => none

/-- A token where a value is expected. -/
def stepValue (float : Numeral → Float) (stack : List Frame) : Token → Option State
  | .listBegin => some ⟨.list [] :: stack, .itemOrEnd⟩
  | .tableBegin => some ⟨.table [] :: stack, .nameOrEnd⟩
  | .null => complete .null stack
  | .bool b => complete (.bool b) stack
  | .number n => complete (.ofNumeral float n) stack
  | .text (some s) => complete (.text s) stack
  | .text none => complete .unusable stack
  | _ => none

/-- A token where a name is expected. -/
def stepName : List Frame → Token → Option State
  | .table members :: rest, .text name => some ⟨.member members name :: rest, .colon⟩
  | _, _ => none

/-- A token behind a value in a container. -/
def stepSeparator : List Frame → Token → Option State
  | .list items :: rest, .comma => some ⟨.list items :: rest, .value⟩
  | .list items :: rest, .listEnd => complete (.list items.reverse) rest
  | .table members :: rest, .comma => some ⟨.table members :: rest, .name⟩
  | .table members :: rest, .tableEnd => complete (closeTable members) rest
  | _, _ => none

def step (float : Numeral → Float) (s : State) (t : Token) : Option State :=
  match s.expected with
  | .value => stepValue float s.stack t
  | .itemOrEnd => if t = .listEnd then stepSeparator s.stack t else stepValue float s.stack t
  | .name => stepName s.stack t
  | .nameOrEnd => if t = .tableEnd then stepSeparator s.stack t else stepName s.stack t
  | .colon => if t = .colon then some ⟨s.stack, .value⟩ else none
  | .separator => stepSeparator s.stack t
  | .nothing _ => none

end State

def build (float : Numeral → Float) (ts : List Token) : Option Datum :=
  match ts.foldlM (State.step float) State.start with
  | some ⟨_, .nothing d⟩ => some d
  | _ => none

def parse (float : Numeral → Float) : Parser := fun text => (tokens text.toList).bind (build float)

end CycleCost.Document.Json
