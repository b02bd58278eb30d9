/-
Module: CycleCost.Proofs.Document.Parts
Purpose: Values by their parts: an induction over them, the floats in them, and the values that a text can hold
  as they are.
Main exports: Datum.recParts, Datum.reals, Datum.mapScalars, Bounded, Plain, Plain.imp, Plain.mono
-/
import CycleCost.Document.Datum

namespace CycleCost.Document

namespace Datum

/-- Whether a value has no parts. -/
def isScalar : Datum → Bool
  | .list _ | .table _ => false
  | _ => true

/-- What passes from the parts of a value to the value holds of every value. -/
@[elab_as_elim]
theorem recParts {motive : Datum → Prop} (scalar : ∀ d, isScalar d → motive d)
    (list : ∀ items, (∀ d ∈ items, motive d) → motive (.list items))
    (table : ∀ members, (∀ m ∈ members, motive m.2) → motive (.table members)) (d : Datum) : motive d := by
  refine @Datum.rec motive (fun items => ∀ d ∈ items, motive d) (fun members => ∀ m ∈ members, motive m.2)
    (fun m => motive m.2) ?null ?bool ?integer ?real ?text list table ?unusable nofun ?items nofun ?members ?member d
  case items => exact fun _ _ first rest => List.forall_mem_cons.2 ⟨first, rest⟩
  case members => exact fun _ _ first rest => List.forall_mem_cons.2 ⟨first, rest⟩
  case member => exact fun _ _ value => value
  all_goals intros; exact scalar _ rfl

mutual

/-- The floats in a value, at any depth. -/
def reals : Datum → List Float
  | .real x => [x]
  | .list items => realsOfItems items
  | .table members => realsOfMembers members
  | _ => []

/-- The floats in items. -/
def realsOfItems : List Datum → List Float
  | [] => []
  | d :: rest => reals d ++ realsOfItems rest

/-- The floats in members. -/
def realsOfMembers : List (String × Datum) → List Float
  | [] => []
  | (_, d) :: rest => reals d ++ realsOfMembers rest

end

theorem reals_list (items : List Datum) : reals (.list items) = items.flatMap reals := by
  rw [reals]
  induction items with
  | nil => rfl
  | cons d rest ih => rw [realsOfItems, ih, List.flatMap_cons]

theorem reals_table (members : List (String × Datum)) : reals (.table members) = members.flatMap (reals ·.2) := by
  rw [reals]
  induction members with
  | nil => rfl
  | cons m rest ih => rw [realsOfMembers, ih, List.flatMap_cons]

mutual

/-- The value with other values in the place of those without parts. -/
def mapScalars (f : Datum → Datum) : Datum → Datum
  | .list items => .list (mapItems f items)
  | .table members => .table (mapMembers f members)
  | d => f d

def mapItems (f : Datum → Datum) : List Datum → List Datum
  | [] => []
  | d :: rest => mapScalars f d :: mapItems f rest

def mapMembers (f : Datum → Datum) : List (String × Datum) → List (String × Datum)
  | [] => []
  | (name, d) :: rest => (name, mapScalars f d) :: mapMembers f rest

end

variable (f : Datum → Datum)

/-- On a scalar the change of scalars is the change itself. -/
theorem mapScalars_of_isScalar {d : Datum} (scalar : isScalar d) : mapScalars f d = f d := by
  cases d <;> first | rfl | cases scalar

theorem mapScalars_list (items : List Datum) : mapScalars f (.list items) = .list (items.map (mapScalars f)) := by
  rw [mapScalars]
  induction items with
  | nil => rfl
  | cons d rest ih =>
    rw [Datum.list.injEq] at ih
    rw [mapItems, ih, List.map_cons]

theorem mapScalars_table (members : List (String × Datum)) :
    mapScalars f (.table members) = .table (members.map fun m => (m.1, mapScalars f m.2)) := by
  rw [mapScalars]
  induction members with
  | nil => rfl
  | cons m rest ih =>
    rw [Datum.table.injEq] at ih
    rw [mapMembers, ih, List.map_cons]

end Datum

/-- Numbers within the bounds of a text, at any depth. -/
inductive Bounded : Datum → Prop where
  | null : Bounded .null
  | bool (b : Bool) : Bounded (.bool b)
  | integer {n : Int} : Int64.minValue.toInt ≤ n → n < UInt64.size → Bounded (.integer n)
  | real {x : Float} : x.isFinite → Bounded (.real x)
  | text (s : String) : Bounded (.text s)
  | list {items : List Datum} : (∀ d ∈ items, Bounded d) → Bounded (.list items)
  | table {members : List (String × Datum)} : (∀ m ∈ members, Bounded m.2) → Bounded (.table members)
  | unusable : Bounded .unusable

/-- The values of some height that a text can hold as they are, when it can hold the floats that satisfy `kept`:
    every integer has at most 64 bits, nothing is unusable, and as many lists and tables stand in one another
    as the height says, or fewer. -/
inductive Plain (kept : Float → Prop) : Nat → Datum → Prop where
  | null {height : Nat} : Plain kept height .null
  | bool {height : Nat} (b : Bool) : Plain kept height (.bool b)
  | integer {height : Nat} {n : Int} : Int64.minValue.toInt ≤ n → n < UInt64.size →
      Plain kept height (.integer n)
  | real {height : Nat} {x : Float} : kept x → Plain kept height (.real x)
  | text {height : Nat} (s : String) : Plain kept height (.text s)
  | list {height : Nat} {items : List Datum} : (∀ d ∈ items, Plain kept height d) →
      Plain kept (height + 1) (.list items)
  | table {height : Nat} {members : List (String × Datum)} : (∀ m ∈ members, Plain kept height m.2) →
      Plain kept (height + 1) (.table members)

namespace Plain

variable {kept kept' : Float → Prop} {height : Nat} {d : Datum}

/-- Only the floats that are there have to satisfy the other predicate. -/
theorem imp (plain : Plain kept height d) (each : ∀ x ∈ d.reals, kept x → kept' x) : Plain kept' height d := by
  induction plain with
  | null => exact .null
  | bool b => exact .bool b
  | integer low high => exact .integer low high
  | real holds => exact .real (each _ List.mem_cons_self holds)
  | text s => exact .text s
  | list _ ih =>
    rw [Datum.reals_list] at each
    exact .list fun d there => ih d there fun x inside => each x (List.mem_flatMap_of_mem there inside)
  | table _ ih =>
    rw [Datum.reals_table] at each
    exact .table fun m there => ih m there fun x inside => each x (List.mem_flatMap_of_mem there inside)

/-- A value of some height has every larger height as well. -/
theorem mono (plain : Plain kept height d) {higher : Nat} (le : height ≤ higher) : Plain kept higher d := by
  induction plain generalizing higher with
  | null => exact .null
  | bool b => exact .bool b
  | integer low high => exact .integer low high
  | real holds => exact .real holds
  | text s => exact .text s
  | list _ ih =>
    obtain ⟨inner, rfl⟩ := Nat.exists_eq_add_of_lt le
    exact .list fun d there => ih d there (Nat.le_add_right _ _)
  | table _ ih =>
    obtain ⟨inner, rfl⟩ := Nat.exists_eq_add_of_lt le
    exact .table fun m there => ih m there (Nat.le_add_right _ _)

end Plain

end CycleCost.Document
