/-
Module: CycleCost.Document.Schema
Purpose: The forms of documents. One description of a type says both how its values are read and how they are
  written, so that the two cannot drift apart. A record is described field by field, with what a field
  stands for when it is missing and when it is left out.
Main exports: Dialect, Form, Form.word64, Form.real, Form.text, Form.optional, Form.list, Form.named, Field,
  Fields, Fields.form
-/
import CycleCost.Document.Datum

namespace CycleCost.Document

/-- What depends on the notation of a document. -/
structure Dialect where
  /-- Whether a record given as a list may have more items than fields. -/
  surplusAllowed : Bool
  /-- The value that may stand under the name of an enumeration value. -/
  isUnit : Datum → Bool

/-- How the values of a type are read and written. -/
structure Form (β : Type) where
  read : Dialect → Datum → Option β
  write : β → Datum

namespace Form

/-- The integers from `low` to below `high`. -/
def integer (low high : Int) : Form Int where
  read
    | _, .integer n => if low ≤ n ∧ n < high then some n else none
    | _, _ => none
  write := .integer

/-- Exit codes: 32-bit integers with a sign. -/
def exitCode : Form Int := integer Int32.minValue.toInt (Int32.maxValue.toInt + 1)

/-- Sizes and numbers of things, below 2^64. -/
def size : Form Nat where
  read
    | _, .integer n => if 0 ≤ n ∧ n < UInt64.size then some n.toNat else none
    | _, _ => none
  write n := .integer n

/-- Counts of 64 bits. -/
def word64 : Form UInt64 where
  read
    | _, .integer n => if 0 ≤ n ∧ n < UInt64.size then some (UInt64.ofNat n.toNat) else none
    | _, _ => none
  write n := .integer n.toNat

/-- Counts of 32 bits. -/
def word32 : Form UInt32 where
  read
    | _, .integer n => if 0 ≤ n ∧ n < UInt32.size then some (UInt32.ofNat n.toNat) else none
    | _, _ => none
  write n := .integer n.toNat

/-- Floats; an integer is read as the nearest one. -/
def real : Form Float where
  read
    | _, .real x => some x
    | _, .integer n => some (Float.ofInt n)
    | _, _ => none
  write := .real

/-- Truth values. -/
def bool : Form Bool where
  read
    | _, .bool b => some b
    | _, _ => none
  write := .bool

def text : Form String where
  read
    | _, .text s => some s
    | _, _ => none
  write := .text

/-- Values that may be absent; null stands for absence. -/
def optional {β : Type} (form : Form β) : Form (Option β) where
  read
    | _, .null => some none
    | dialect, d => (form.read dialect d).map some
  write
    | none => .null
    | some v => form.write v

def list {β : Type} (form : Form β) : Form (List β) where
  read
    | dialect, .list items => items.mapM (form.read dialect)
    | _, _ => none
  write vs := .list (vs.map form.write)

/-- The values of an enumeration by their names. A name may also be the only member of a table, over a value
    that says nothing. -/
def named {β : Type} (all : List β) (name : β → String) : Form β where
  read
    | _, .text s => all.find? (name · == s)
    | dialect, .table [(s, d)] => if dialect.isUnit d then all.find? (name · == s) else none
    | _, _ => none
  write v := .text (name v)

end Form

/-- A field of the records `ρ`. -/
structure Field (ρ β : Type) where
  name : String
  form : Form β
  get : ρ → β
  /-- What a table without the field means. -/
  whenMissing : Option β
  /-- What a list that ends before the field means. -/
  whenLeftOff : Option β
  /-- Values that are not written. -/
  omits : β → Bool

namespace Field

variable {ρ β : Type}

/-- A field that has to be there. -/
def required (name : String) (form : Form β) (get : ρ → β) : Field ρ β :=
  ⟨name, form, get, none, none, fun _ => false⟩

/-- A field that a table may lack, and that is always written. -/
def optional (name : String) (form : Form β) (get : ρ → Option β) : Field ρ (Option β) :=
  ⟨name, form.optional, get, some none, none, fun _ => false⟩

/-- A field that may be missing for its default, and that is always written. -/
def defaulted (name : String) (form : Form β) (default : β) (get : ρ → β) : Field ρ β :=
  ⟨name, form, get, some default, some default, fun _ => false⟩

/-- A field that may be missing, and that is written only when there is a value. -/
def whenPresent (name : String) (form : Form β) (get : ρ → Option β) : Field ρ (Option β) :=
  ⟨name, form.optional, get, some none, some none, Option.isNone⟩

end Field

/-- The fields of the records `ρ` from which a value of type `α` is built, in order. -/
structure Fields (ρ α : Type) where
  names : List String
  fromTable : Dialect → (String → Option Datum) → Option α
  /-- Reads the fields off the front of a list and gives the items behind them. -/
  fromList : Dialect → List Datum → Option (α × List Datum)
  members : ρ → List (String × Datum)

namespace Fields

variable {ρ α β : Type}

/-- No fields: the value is known. -/
def of (value : α) : Fields ρ α where
  names := []
  fromTable _ _ := some value
  fromList _ items := some (value, items)
  members _ := []

/-- One more field. -/
def add (fields : Fields ρ (β → α)) (field : Field ρ β) : Fields ρ α where
  names := fields.names ++ [field.name]
  fromTable dialect lookup := do
    let build ← fields.fromTable dialect lookup
    match lookup field.name with
    | some d => (field.form.read dialect d).map build
    | none => field.whenMissing.map build
  fromList dialect items := do
    let (build, rest) ← fields.fromList dialect items
    match rest with
    | d :: behind => (field.form.read dialect d).map fun v => (build v, behind)
    | [] => field.whenLeftOff.map fun v => (build v, [])
  members r :=
    let v := field.get r
    fields.members r ++ if field.omits v then [] else [(field.name, field.form.write v)]

/-- Whether no known name stands twice in a table. -/
def unambiguous (fields : Fields ρ α) (members : List (String × Datum)) : Bool :=
  fields.names.all fun name => (members.filter (·.1 == name)).length ≤ 1

/-- Records as tables; unknown members are not looked at. A record may also be the list of its fields. -/
def form (fields : Fields ρ ρ) : Form ρ where
  read
    | dialect, .table members =>
      if fields.unambiguous members then
        fields.fromTable dialect fun name => (members.find? (·.1 == name)).map (·.2)
      else none
    | dialect, .list items => do
      let (record, rest) ← fields.fromList dialect items
      if rest.isEmpty || dialect.surplusAllowed then some record else none
    | _, _ => none
  write r := .table (fields.members r)

end Fields

end CycleCost.Document
