/-
Module: CycleCost.Proofs.Document.Library
Purpose: What is relied on of a library for JSON texts. A value is read back from its text part by part, and a
  float that is not finite is written as null; a text that is nested beyond a limit need not be read. Whether a
  finite float is read as itself is a matter of the single float: a reader that does not find the nearest float
  for every numeral keeps some floats and loses others. So this is asked of the floats that a document holds,
  and of no others.
Main exports: nestingLimit, Faithful, Library.Lawful, Library.Keeps, Library.KeepsFloats, Library.Tells,
  Faithful.parse_plain, Faithful.parse_mapScalars
-/
import CycleCost.Document.Json.Library
import CycleCost.Proofs.Document.Parts
import Mathlib.Data.List.Forall2

namespace CycleCost.Document

/-- Whether there is a value and it is a number. -/
def isNumber : Option Datum → Bool
  | some (.real _) | some (.integer _) => true
  | _ => false

namespace Json

/-- So many lists and tables may stand in one another in a text. A library that gives each of them a frame of the
    call stack refuses the next one. -/
def nestingLimit : Nat := 127

/-- A parser reads what a writer writes: scalars as they are, floats apart, and a list or a table within the limit
    as soon as it reads the texts of the parts. -/
structure Faithful (parse : Parser) (write : Datum → String) : Prop where
  null : parse (write .null) = some .null
  bool : ∀ b, parse (write (.bool b)) = some (.bool b)
  integer : ∀ {n : Int}, Int64.minValue.toInt ≤ n → n < UInt64.size →
    parse (write (.integer n)) = some (.integer n)
  text : ∀ s, parse (write (.text s)) = some (.text s)
  notFinite : ∀ {x : Float}, x.isFinite = false → write (.real x) = write .null
  list : ∀ {items items'}, Plain (fun _ => True) nestingLimit (.list items) →
    List.Forall₂ (fun d d' => parse (write d) = some d') items items' →
    parse (write (.list items)) = some (.list items')
  table : ∀ {members members'}, Plain (fun _ => True) nestingLimit (.table members) →
    List.Forall₂ (fun m m' => m.1 = m'.1 ∧ parse (write m.2) = some m'.2) members members' →
    parse (write (.table members)) = some (.table members')

/-- What a parser finds in the text of a value. -/
def found (parse : Parser) (write : Datum → String) (d : Datum) : Datum := (parse (write d)).getD .null

namespace Faithful

variable {parse : Parser} {write : Datum → String} {kept : Float → Prop} {height : Nat} {d : Datum}

/-- A value within the limit can be written, whatever is read for its floats. -/
theorem plain_within (plain : Plain kept height d) (within : height ≤ nestingLimit) :
    Plain (fun _ => True) nestingLimit d :=
  (plain.imp fun _ _ _ => trivial).mono within

/-- A value is read back as soon as its floats are. -/
theorem parse_plain (faithful : Faithful parse write)
    (plain : Plain (fun x => parse (write (.real x)) = some (.real x)) height d) (within : height ≤ nestingLimit) :
    parse (write d) = some d := by
  induction plain with
  | null => exact faithful.null
  | bool b => exact faithful.bool b
  | integer low high => exact faithful.integer low high
  | real kept => exact kept
  | text s => exact faithful.text s
  | list each ih =>
    have inner := Nat.le_of_succ_le within
    exact faithful.list (plain_within (.list each) within) (List.forall₂_same.2 fun d there => ih d there inner)
  | table each ih =>
    have inner := Nat.le_of_succ_le within
    refine faithful.table (plain_within (.table each) within) (List.forall₂_same.2 fun m there => ?_)
    exact ⟨rfl, ih m there inner⟩

/-- What is found in a written value is what the text parses as. -/
theorem parse_found {d : Datum} (there : (parse (write d)).isSome) :
    parse (write d) = some (found parse write d) := by
  obtain ⟨d', same⟩ := Option.isSome_iff_exists.1 there
  rw [found, same, Option.getD_some]

/-- Where the floats are read as other values, so they are in the value that is found. -/
theorem parse_mapScalars (faithful : Faithful parse write)
    (plain : Plain (fun x => (parse (write (.real x))).isSome) height d) (within : height ≤ nestingLimit) :
    parse (write d) = some (d.mapScalars (found parse write)) := by
  induction plain with
  | null => exact parse_found (Option.isSome_of_eq_some faithful.null)
  | bool b => exact parse_found (Option.isSome_of_eq_some (faithful.bool b))
  | integer low high => exact parse_found (Option.isSome_of_eq_some (faithful.integer low high))
  | real there => exact parse_found there
  | text s => exact parse_found (Option.isSome_of_eq_some (faithful.text s))
  | list each ih =>
    have inner := Nat.le_of_succ_le within
    rw [Datum.mapScalars_list]
    refine faithful.list (plain_within (.list each) within) (List.forall₂_map_right_iff.2 ?_)
    exact List.forall₂_same.2 fun d there => ih d there inner
  | table each ih =>
    have inner := Nat.le_of_succ_le within
    rw [Datum.mapScalars_table]
    refine faithful.table (plain_within (.table each) within) (List.forall₂_map_right_iff.2 ?_)
    exact List.forall₂_same.2 fun m there => ⟨rfl, ih m there inner⟩

end Faithful

namespace Library

variable (lib : Library)

/-- Both texts of a value are read part by part, within the limit of nesting, and no number that is read is out of
    bounds. -/
structure Lawful : Prop where
  bounded : ∀ {text d}, lib.parse text = some d → Bounded d
  compact : Faithful lib.parse lib.compact
  pretty : Faithful lib.parse lib.pretty

/-- The texts of a float are read as this float. -/
def Keeps (x : Float) : Prop :=
  lib.parse (lib.compact (.real x)) = some (.real x) ∧ lib.parse (lib.pretty (.real x)) = some (.real x)

/-- The finite floats in a value are kept. -/
def KeepsFloats (d : Datum) : Prop := ∀ x ∈ d.reals, x.isFinite → lib.Keeps x

/-- The texts of a float are read as numbers, if not as this one. -/
def Tells (x : Float) : Prop :=
  isNumber (lib.parse (lib.compact (.real x))) ∧ isNumber (lib.parse (lib.pretty (.real x)))

/-- The finite floats in a value are read as numbers. -/
def TellsFloats (d : Datum) : Prop := ∀ x ∈ d.reals, x.isFinite → lib.Tells x

end Library

end Json

end CycleCost.Document
