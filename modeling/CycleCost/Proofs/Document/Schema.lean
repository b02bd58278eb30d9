/-
Module: CycleCost.Proofs.Document.Schema
Purpose: Forms that lose nothing. A form is governed by a predicate when reading gives only values that have
  it, and every value that has it is read back from what is written for it, also when members that hold
  their default have been taken out. The property passes from the forms of the fields to records.
Main exports: Thinned, Form.Governed, Fields.Described, Fields.Described.governed
-/
import CycleCost.Document.Schema
import CycleCost.Proofs.Decimal.Reading
import CycleCost.Proofs.Document.Parts

namespace CycleCost.Document

/-! ### Values without some of their default members -/

section

variable (marks : String → Option Datum)

mutual

/-- The second value is the first one without some members, at any depth, that hold the default that
    `marks` has for their name. -/
inductive Thinned : Datum → Datum → Prop where
  | same (d : Datum) : Thinned d d
  | list {items items' : List Datum} : ThinnedItems items items' → Thinned (.list items) (.list items')
  | table {members members' : List (String × Datum)} :
    ThinnedMembers members members' → Thinned (.table members) (.table members')

/-- The same items, thinned one by one. -/
inductive ThinnedItems : List Datum → List Datum → Prop where
  | nil : ThinnedItems [] []
  | cons {d d' : Datum} {rest rest' : List Datum} :
    Thinned d d' → ThinnedItems rest rest' → ThinnedItems (d :: rest) (d' :: rest')

/-- Some of the members, thinned one by one. -/
inductive ThinnedMembers : List (String × Datum) → List (String × Datum) → Prop where
  | nil : ThinnedMembers [] []
  | keep (name : String) {d d' : Datum} {rest rest' : List (String × Datum)} :
    Thinned d d' → ThinnedMembers rest rest' → ThinnedMembers ((name, d) :: rest) ((name, d') :: rest')
  | drop {name : String} {d : Datum} {rest rest' : List (String × Datum)} :
    marks name = some d → ThinnedMembers rest rest' → ThinnedMembers ((name, d) :: rest) rest'

end

end

section

variable {marks : String → Option Datum} {kept : Float → Prop}

theorem ThinnedItems.refl (items : List Datum) : ThinnedItems marks items items := by
  induction items with
  | nil => exact .nil
  | cons d rest ih => exact .cons (.same d) ih

theorem ThinnedMembers.refl (members : List (String × Datum)) : ThinnedMembers marks members members := by
  induction members with
  | nil => exact .nil
  | cons m rest ih => exact .keep m.1 (.same m.2) ih

theorem Thinned.of_list {items : List Datum} {d : Datum} (thinned : Thinned marks (.list items) d) :
    ∃ items', d = .list items' ∧ ThinnedItems marks items items' := by
  cases thinned with
  | same => exact ⟨items, rfl, .refl items⟩
  | list each => exact ⟨_, rfl, each⟩

/-- A thinned table is a table of some of the members, thinned. -/
theorem Thinned.of_table {members : List (String × Datum)} {d : Datum}
    (thinned : Thinned marks (.table members) d) :
    ∃ members', d = .table members' ∧ ThinnedMembers marks members members' := by
  cases thinned with
  | same => exact ⟨members, rfl, .refl members⟩
  | table each => exact ⟨_, rfl, each⟩

/-- Nothing is null that was not null before. -/
theorem Thinned.ne_null {d d' : Datum} (thinned : Thinned marks d d') (present : d ≠ .null) :
    d' ≠ .null := by
  cases thinned with
  | same => exact present
  | list _ => simp
  | table _ => simp

/-- Members in two parts are thinned part by part. -/
theorem ThinnedMembers.append_split {front behind members : List (String × Datum)}
    (thinned : ThinnedMembers marks (front ++ behind) members) :
    ∃ front' behind', members = front' ++ behind' ∧ ThinnedMembers marks front front' ∧
      ThinnedMembers marks behind behind' := by
  induction front generalizing members with
  | nil => exact ⟨[], members, rfl, .nil, thinned⟩
  | cons m front ih =>
    cases thinned with
    | keep name value rest =>
      obtain ⟨front', behind', rfl, first, second⟩ := ih rest
      exact ⟨_ :: front', behind', rfl, .keep name value first, second⟩
    | drop marked rest =>
      obtain ⟨front', behind', rfl, first, second⟩ := ih rest
      exact ⟨front', behind', rfl, .drop marked first, second⟩

/-- Taking members out adds no name. -/
theorem ThinnedMembers.names {members members' : List (String × Datum)}
    (thinned : ThinnedMembers marks members members') :
    (members'.map (·.1)).Sublist (members.map (·.1)) := by
  induction members generalizing members' with
  | nil =>
    cases thinned
    exact .refl _
  | cons m rest ih =>
    cases thinned with
    | keep name _ others => exact (ih others).cons_cons name
    | drop _ others => exact (ih others).cons _

mutual

/-- Thinning leaves a plain value plain. -/
theorem Plain.thinned : ∀ {d d' : Datum} {height : Nat}, Thinned marks d d' → Plain kept height d →
    Plain kept height d'
  | _, _, _, .same _, plain => plain
  | _, _, _, .list each, .list plain => .list (plain_thinnedItems each plain)
  | _, _, _, .table each, .table plain => .table (plain_thinnedMembers each plain)

theorem plain_thinnedItems : ∀ {items items' : List Datum} {height : Nat}, ThinnedItems marks items items' →
    (∀ d ∈ items, Plain kept height d) → ∀ d ∈ items', Plain kept height d
  | _, _, _, .nil, _ => nofun
  | _, _, _, .cons first rest, plain => by
    rw [List.forall_mem_cons] at plain ⊢
    exact ⟨Plain.thinned first plain.1, plain_thinnedItems rest plain.2⟩

theorem plain_thinnedMembers : ∀ {members members' : List (String × Datum)} {height : Nat},
    ThinnedMembers marks members members' → (∀ m ∈ members, Plain kept height m.2) →
    ∀ m ∈ members', Plain kept height m.2
  | _, _, _, .nil, _ => nofun
  | _, _, _, .keep name first rest, plain => by
    rw [List.forall_mem_cons] at plain ⊢
    exact ⟨Plain.thinned first plain.1, plain_thinnedMembers rest plain.2⟩
  | _, _, _, .drop _ rest, plain => by
    rw [List.forall_mem_cons] at plain
    exact plain_thinnedMembers rest plain.2

end

end

/-! ### Forms -/

section

variable {marks : String → Option Datum} {dialect : Dialect}

namespace Form

variable {β : Type} {height : Nat}

/-- Whatever is read satisfies `ok`, and whatever satisfies `ok` is written with this height and read back, even
    from a thinned value. -/
structure Governed (marks : String → Option Datum) (dialect : Dialect) (form : Form β) (height : Nat)
    (ok : β → Prop) : Prop where
  sound : ∀ {d v}, Bounded d → form.read dialect d = some v → ok v
  plain : ∀ {v}, ok v → Plain (·.isFinite) height (form.write v)
  reads : ∀ {v d}, ok v → Thinned marks (form.write v) d → form.read dialect d = some v

theorem governed_word64 : word64.Governed marks dialect 0 fun _ => True where
  sound _ _ := trivial
  plain {v} _ := by
    have bound := v.toNat_lt
    exact .integer (by simp) (by simp [UInt64.size]; omega)
  reads {v d} _ thinned := by
    have bound := v.toNat_lt
    cases thinned
    simp [word64, UInt64.size]
    omega

theorem governed_word32 : word32.Governed marks dialect 0 fun _ => True where
  sound _ _ := trivial
  plain {v} _ := by
    have bound := v.toNat_lt
    exact .integer (by simp) (by simp [UInt64.size]; omega)
  reads {v d} _ thinned := by
    have bound := v.toNat_lt
    cases thinned
    simp [word32, UInt32.size]
    omega

/-- A number of elements is read back as long as it fits 64 bits. -/
theorem governed_size : size.Governed marks dialect 0 fun n => n < UInt64.size where
  sound {d v} _ read := by
    unfold size at read
    dsimp only at read
    split at read
    · split at read
      · cases read
        omega
      · cases read
    · cases read
  plain {n} small := .integer (by simp) (by omega)
  reads {n d} small thinned := by
    cases thinned
    have bounds : (0 : Int) ≤ n ∧ (n : Int) < UInt64.size := by omega
    simp only [size, if_pos bounds, Int.toNat_natCast]

theorem governed_bool : bool.Governed marks dialect 0 fun _ => True where
  sound _ _ := trivial
  plain _ := .bool _
  reads _ thinned := by
    cases thinned
    rfl

theorem governed_text : text.Governed marks dialect 0 fun _ => True where
  sound _ _ := trivial
  plain _ := .text _
  reads _ thinned := by
    cases thinned
    rfl

/-- A number is read back as long as it is finite. -/
theorem governed_real : real.Governed marks dialect 0 fun x => x.isFinite where
  sound {d x} bounded read := by
    cases bounded with
    | real finite =>
      cases read
      exact finite
    | integer low high =>
      cases read
      exact Decimal.isFinite_ofInt low high
    | _ => cases read
  plain finite := .real finite
  reads _ thinned := by
    cases thinned
    rfl

/-- A form that never writes null, so that null can stand for absence. -/
def NeverNull (form : Form β) : Prop := ∀ v, form.write v ≠ .null

theorem neverNull_real : real.NeverNull := nofun

theorem neverNull_text : text.NeverNull := nofun

/-- An optional value is governed by the form of the value where that never writes null. -/
theorem Governed.optional {form : Form β} {ok : β → Prop} (governed : form.Governed marks dialect height ok)
    (present : form.NeverNull) : form.optional.Governed marks dialect height fun v => ∀ w, v = some w → ok w where
  sound {d v} bounded read := by
    rintro w rfl
    unfold Form.optional at read
    dsimp only at read
    split at read
    · cases read
    · obtain ⟨w', found, same⟩ := Option.map_eq_some_iff.1 read
      cases same
      exact governed.sound bounded found
  plain {v} ok := by
    cases v with
    | none => exact .null
    | some w => exact governed.plain (ok w rfl)
  reads {v d} ok thinned := by
    cases v with
    | none =>
      cases thinned
      rfl
    | some w =>
      have read := governed.reads (ok w rfl) thinned
      have notNull := thinned.ne_null (present w)
      simp [Form.optional, read]

/-- Thinned items are read back one by one. -/
theorem mapM_thinned {form : Form β} {ok : β → Prop} (governed : form.Governed marks dialect height ok)
    {vs : List β} (each : ∀ v ∈ vs, ok v) {items : List Datum}
    (thinned : ThinnedItems marks (vs.map form.write) items) : items.mapM (form.read dialect) = some vs := by
  induction vs generalizing items with
  | nil =>
    cases thinned
    rfl
  | cons v vs ih =>
    rw [List.forall_mem_cons] at each
    cases thinned with
    | cons first rest =>
      simp [List.mapM_cons, governed.reads each.1 first, ih each.2 rest]

/-- Every item that is read satisfies what its form guarantees. -/
theorem forall_of_mapM {form : Form β} {ok : β → Prop} (governed : form.Governed marks dialect height ok)
    {items : List Datum} (bounded : ∀ d ∈ items, Bounded d) {vs : List β}
    (read : items.mapM (form.read dialect) = some vs) : ∀ v ∈ vs, ok v := by
  induction items generalizing vs with
  | nil =>
    cases read
    nofun
  | cons d items ih =>
    rw [List.forall_mem_cons] at bounded
    simp only [List.mapM_cons, Option.bind_eq_bind, Option.bind_eq_some_iff, Option.pure_def,
      Option.some.injEq] at read
    obtain ⟨v, first, rest, others, rfl⟩ := read
    exact List.forall_mem_cons.2 ⟨governed.sound bounded.1 first, ih bounded.2 others⟩

/-- A list is governed by the form of its elements. -/
theorem Governed.list {form : Form β} {ok : β → Prop} (governed : form.Governed marks dialect height ok) :
    form.list.Governed marks dialect (height + 1) fun vs => ∀ v ∈ vs, ok v where
  sound {d vs} bounded read := by
    cases bounded with
    | list each => exact forall_of_mapM governed each read
    | _ => cases read
  plain each := .list fun d h => by
    obtain ⟨v, there, rfl⟩ := List.mem_map.1 h
    exact governed.plain (each v there)
  reads {vs d} each thinned := by
    obtain ⟨items, rfl, thinnedItems⟩ := thinned.of_list
    exact mapM_thinned governed each thinnedItems

/-- An enumeration is governed when its names tell its values apart. -/
theorem governed_named {all : List β} {name : β → String}
    (distinct : ∀ v, all.find? (name · == name v) = some v) :
    (named all name).Governed marks dialect 0 fun _ => True where
  sound _ _ := trivial
  plain _ := .text _
  reads {v d} _ thinned := by
    cases thinned
    exact distinct v

end Form

/-! ### Records -/

/-- The members of a table by name, as a record reads them. -/
def lookup (members : List (String × Datum)) (name : String) : Option Datum :=
  (members.find? (·.1 == name)).map (·.2)

theorem lookup_append_left {front behind : List (String × Datum)} {name : String}
    (absent : name ∉ behind.map (·.1)) : lookup (front ++ behind) name = lookup front name := by
  have none : behind.find? (·.1 == name) = none := by
    rw [List.find?_eq_none]
    intro m there same
    exact absent (List.mem_map.2 ⟨m, there, by simpa using same⟩)
  rw [lookup, List.find?_append, none, Option.or_none, lookup]

theorem lookup_append_right {front behind : List (String × Datum)} {name : String}
    (absent : name ∉ front.map (·.1)) : lookup (front ++ behind) name = lookup behind name := by
  have none : front.find? (·.1 == name) = none := by
    rw [List.find?_eq_none]
    intro m there same
    exact absent (List.mem_map.2 ⟨m, there, by simpa using same⟩)
  rw [lookup, List.find?_append, none, Option.none_or, lookup]

/-- What is found in bounded members is bounded. -/
theorem bounded_lookup {members : List (String × Datum)} (each : ∀ m ∈ members, Bounded m.2)
    {name : String} {d : Datum} (found : lookup members name = some d) : Bounded d := by
  obtain ⟨m, first, rfl⟩ := Option.map_eq_some_iff.1 found
  exact each m (List.mem_of_find?_eq_some first)

/-- A field that reads back what it writes and what it leaves out. -/
structure Field.Governed (marks : String → Option Datum) (dialect : Dialect) {ρ β : Type}
    (field : Field ρ β) (height : Nat) (ok : β → Prop) : Prop where
  form : field.form.Governed marks dialect height ok
  missing : ∀ {v}, field.whenMissing = some v → ok v
  leftOff : ∀ {v}, field.whenLeftOff = some v → ok v
  omitted : ∀ {v}, field.omits v = true → field.whenMissing = some v
  dropped : ∀ {v}, marks field.name = some (field.form.write v) → field.whenMissing = some v

namespace Field

variable {ρ β : Type} {name : String} {form : Form β} {height : Nat} {ok : β → Prop}

/-- A field without a default. -/
theorem governed_required {get : ρ → β} (governed : form.Governed marks dialect height ok)
    (unmarked : marks name = none) : (required name form get).Governed marks dialect height ok where
  form := governed
  missing := nofun
  leftOff := nofun
  omitted := nofun
  dropped marked := by cases unmarked.symm.trans marked

/-- A field whose name stands for an absent value elsewhere. -/
theorem governed_required_present {get : ρ → β} (governed : form.Governed marks dialect height ok)
    (present : form.NeverNull) (marked : marks name = some .null) :
    (required name form get).Governed marks dialect height ok where
  form := governed
  missing := nofun
  leftOff := nofun
  omitted := nofun
  dropped {v} found := absurd (Option.some.inj (marked.symm.trans found)).symm (present v)

theorem governed_optional {get : ρ → Option β} (governed : form.Governed marks dialect height ok)
    (present : form.NeverNull) (unmarked : marks name = none) :
    (Field.optional name form get).Governed marks dialect height fun v => ∀ w, v = some w → ok w where
  form := governed.optional present
  missing | rfl => nofun
  leftOff := nofun
  omitted := nofun
  dropped marked := by cases unmarked.symm.trans marked

theorem eq_none_of_write (present : form.NeverNull) {v : Option β}
    (written : form.optional.write v = .null) : v = none := by
  cases v with
  | none => rfl
  | some w => exact absurd written (present w)

/-- A field left out when absent is governed by the form of its value. -/
theorem governed_whenPresent {get : ρ → Option β} (governed : form.Governed marks dialect height ok)
    (present : form.NeverNull) (marked : marks name = some .null) :
    (whenPresent name form get).Governed marks dialect height fun v => ∀ w, v = some w → ok w where
  form := governed.optional present
  missing | rfl => nofun
  leftOff | rfl => nofun
  omitted absent := congrArg some (Option.isNone_iff_eq_none.1 absent).symm
  dropped found := by
    have written := Option.some.inj (marked.symm.trans found)
    exact congrArg some (eq_none_of_write present written.symm).symm

/-- A field that defaults to absence is governed by the form of its value. -/
theorem governed_defaulted_none {get : ρ → Option β} (governed : form.Governed marks dialect height ok)
    (present : form.NeverNull) (marked : marks name = some .null) :
    (defaulted name form.optional none get).Governed marks dialect height fun v => ∀ w, v = some w → ok w where
  form := governed.optional present
  missing | rfl => nofun
  leftOff | rfl => nofun
  omitted := nofun
  dropped found := by
    have written := Option.some.inj (marked.symm.trans found)
    exact congrArg some (eq_none_of_write present written.symm).symm

theorem governed_defaulted_nil {get : ρ → List β} (governed : form.Governed marks dialect height ok)
    (marked : marks name = some (.list [])) :
    (defaulted name form.list [] get).Governed marks dialect (height + 1) fun vs => ∀ v ∈ vs, ok v where
  form := governed.list
  missing | rfl => nofun
  leftOff | rfl => nofun
  omitted := nofun
  dropped {vs} found := by
    have written := Option.some.inj (marked.symm.trans found)
    cases vs with
    | nil => rfl
    | cons v vs => cases written

end Field

namespace Fields

variable {ρ α β : Type}

/-- What the fields of a record guarantee. A record whose fields satisfy `ok` is rebuilt, as `rebuilt` says,
    from the members that are written for it; and whatever is read satisfies every property that `yields`
    derives from the properties of the single fields. -/
structure Described (marks : String → Option Datum) (dialect : Dialect) (fields : Fields ρ α) (height : Nat)
    (ok : ρ → Prop) (rebuilt : ρ → α) (yields : (α → Prop) → Prop) : Prop where
  nodup : fields.names.Nodup
  names : ∀ r, ((fields.members r).map (·.1)).Sublist fields.names
  local_ : ∀ {look look'}, (∀ name ∈ fields.names, look name = look' name) →
    fields.fromTable dialect look = fields.fromTable dialect look'
  plain : ∀ {r}, ok r → ∀ m ∈ fields.members r, Plain (·.isFinite) height m.2
  reads : ∀ {r members}, ok r → ThinnedMembers marks (fields.members r) members →
    fields.fromTable dialect (lookup members) = some (rebuilt r)
  table : ∀ {property look v}, yields property → (∀ {name d}, look name = some d → Bounded d) →
    fields.fromTable dialect look = some v → property v
  list : ∀ {property items v rest}, yields property → (∀ d ∈ items, Bounded d) →
    fields.fromList dialect items = some (v, rest) → property v ∧ ∀ d ∈ rest, Bounded d

/-- A record without fields is rebuilt from nothing. -/
theorem described_of (value : α) :
    (of value : Fields ρ α).Described marks dialect 0 (fun _ => True) (fun _ => value) (· value) where
  nodup := .nil
  names _ := .refl _
  local_ _ := rfl
  plain _ := nofun
  reads _ _ := rfl
  table holds _ read := by
    cases read
    exact holds
  list holds bounded read := by
    cases read
    exact ⟨holds, bounded⟩

variable {fields : Fields ρ (β → α)} {field : Field ρ β} {ok : ρ → Prop} {rebuilt : ρ → β → α}
  {yields : ((β → α) → Prop) → Prop} {fieldOk : β → Prop} {height fieldHeight : Nat}

/-- The member of a field is written under its name, or left out. -/
theorem thinned_field (governed : field.Governed marks dialect fieldHeight fieldOk) {r : ρ}
    (good : fieldOk (field.get r)) {members : List (String × Datum)}
    (thinned : ThinnedMembers marks
      (if field.omits (field.get r) then [] else [(field.name, field.form.write (field.get r))]) members) :
    (lookup members field.name = none ∧ field.whenMissing = some (field.get r)) ∨
      ∃ d, lookup members field.name = some d ∧ field.form.read dialect d = some (field.get r) := by
  split at thinned
  case isTrue omitted =>
    cases thinned
    exact .inl ⟨rfl, governed.omitted omitted⟩
  case isFalse written =>
    cases thinned with
    | keep _ value rest =>
      cases rest
      exact .inr ⟨_, by simp [lookup], governed.form.reads good value⟩
    | drop marked rest =>
      cases rest
      exact .inl ⟨rfl, governed.dropped marked⟩

/-- A further field under a fresh name adds what it guarantees. -/
theorem Described.add (described : fields.Described marks dialect height ok rebuilt yields)
    (governed : field.Governed marks dialect fieldHeight fieldOk) (fresh : field.name ∉ fields.names) :
    (fields.add field).Described marks dialect (max height fieldHeight) (fun r => ok r ∧ fieldOk (field.get r))
      (fun r => rebuilt r (field.get r))
      (fun property => yields fun build => ∀ v, fieldOk v → property (build v)) where
  nodup := by
    rw [Fields.add, List.nodup_append]
    refine ⟨described.nodup, by simp, ?_⟩
    rintro a there b last rfl
    exact fresh (List.mem_singleton.1 last ▸ there)
  names r := by
    simp only [Fields.add, List.map_append]
    refine (described.names r).append ?_
    split <;> simp
  local_ {look look'} same := by
    simp only [Fields.add, List.mem_append, List.mem_singleton] at same ⊢
    rw [described.local_ fun name there => same name (.inl there), same _ (.inr rfl)]
  plain {r} good m there := by
    simp only [Fields.add, List.mem_append] at there
    rcases there with earlier | last
    · exact (described.plain good.1 m earlier).mono (Nat.le_max_left _ _)
    · split at last
      · cases last
      · rw [List.mem_singleton.1 last]
        exact (governed.form.plain good.2).mono (Nat.le_max_right _ _)
  reads {r members} good thinned := by
    obtain ⟨front, behind, rfl, first, second⟩ := thinned.append_split
    have frontNames : ∀ name ∈ front.map (·.1), name ∈ fields.names := fun name there =>
      (described.names r).subset (first.names.subset there)
    have behindNames : ∀ name ∈ behind.map (·.1), name = field.name := fun name there => by
      have known := second.names.subset there
      split at known <;> simp_all
    have earlier : fields.fromTable dialect (lookup (front ++ behind)) = some (rebuilt r) := by
      rw [← described.reads good.1 first]
      refine described.local_ fun name there => lookup_append_left fun clash => ?_
      exact fresh (behindNames name clash ▸ there)
    have last : lookup (front ++ behind) field.name = lookup behind field.name :=
      lookup_append_right fun clash => fresh (frontNames _ clash)
    simp only [Fields.add, earlier, last, Option.bind_eq_bind, Option.bind_some]
    rcases thinned_field governed good.2 second with ⟨absent, missing⟩ | ⟨d, found, read⟩
    · simp [absent, missing]
    · simp [found, read]
  table {property look v} holds bounded read := by
    simp only [Fields.add, Option.bind_eq_bind, Option.bind_eq_some_iff] at read
    obtain ⟨build, earlier, last⟩ := read
    have step := described.table holds bounded earlier
    split at last
    · next d found =>
      obtain ⟨w, value, rfl⟩ := Option.map_eq_some_iff.1 last
      exact step w (governed.form.sound (bounded found) value)
    · next absent =>
      obtain ⟨w, value, rfl⟩ := Option.map_eq_some_iff.1 last
      exact step w (governed.missing value)
  list {property items v rest} holds bounded read := by
    simp only [Fields.add, Option.bind_eq_bind, Option.bind_eq_some_iff, Prod.exists] at read
    obtain ⟨build, behind, earlier, last⟩ := read
    have step := described.list holds bounded earlier
    split at last
    · next d others =>
      obtain ⟨w, value, same⟩ := Option.map_eq_some_iff.1 last
      cases same
      have parts := List.forall_mem_cons.1 step.2
      exact ⟨step.1 w (governed.form.sound parts.1 value), parts.2⟩
    · obtain ⟨w, value, same⟩ := Option.map_eq_some_iff.1 last
      cases same
      exact ⟨step.1 w (governed.leftOff value), nofun⟩

/-- A table without some of its members names nothing twice that it did not name twice before. -/
theorem unambiguous_of_sublist {fields : Fields ρ α} (nodup : fields.names.Nodup)
    {members : List (String × Datum)} (names : (members.map (·.1)).Sublist fields.names) :
    fields.unambiguous members = true := by
  rw [unambiguous, List.all_eq_true]
  intro name _
  have once := (List.Nodup.sublist names nodup).filter (· == name)
  have same : (members.filter (·.1 == name)).map (·.1) = (members.map (·.1)).filter (· == name) := by
    rw [List.filter_map]
    rfl
  rw [decide_eq_true_eq, ← List.length_map (·.1), same]
  have equal : ∀ a ∈ (members.map (·.1)).filter (· == name), a = name := fun a there => by
    simpa using (List.mem_filter.1 there).2
  generalize (members.map (·.1)).filter (· == name) = found at *
  match found, once, equal with
  | [], _, _ => simp
  | [_], _, _ => simp
  | a :: b :: _, once, equal =>
    have first := equal a (by simp)
    have second := equal b (by simp)
    simp [first, second] at once

/-- Records are governed by what their fields are governed by. -/
theorem Described.governed {fields : Fields ρ ρ} {ok property : ρ → Prop} {rebuilt : ρ → ρ}
    {yields : (ρ → Prop) → Prop} {height : Nat}
    (described : fields.Described marks dialect height ok rebuilt yields)
    (same : ∀ r, rebuilt r = r) (enough : ∀ r, property r → ok r) (given : yields property) :
    fields.form.Governed marks dialect (height + 1) property where
  sound {d r} bounded read := by
    cases bounded with
    | table each =>
      simp only [form] at read
      split at read
      · exact described.table given (bounded_lookup each) read
      · cases read
    | list each =>
      simp only [form, Option.bind_eq_bind, Option.bind_eq_some_iff, Prod.exists] at read
      obtain ⟨r', rest, fromList, last⟩ := read
      split at last
      · cases last
        exact (described.list given each fromList).1
      · cases last
    | _ => cases read
  plain good := .table (described.plain (enough _ good))
  reads {r d} good thinned := by
    obtain ⟨members, rfl, thinnedMembers⟩ := thinned.of_table
    have names := thinnedMembers.names.trans (described.names r)
    have read := described.reads (enough _ good) thinnedMembers
    simp only [form, unambiguous_of_sublist described.nodup names, if_pos]
    rw [← same r]
    exact read

end Fields

end

end CycleCost.Document
