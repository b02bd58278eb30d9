/-
Module: CycleCost.Proofs.Document.Spelling
Purpose: Both texts of a value, the one-line text and the indented one, have the same tokens, and from these
  tokens a reader builds a value of the same shape. Only its numbers depend on the floats that the reader has
  for numerals.
Main exports: spelling, readAs, spells_compact, spells_pretty, parse_compact, parse_pretty
-/
import CycleCost.Document.Json.Library
import CycleCost.Proofs.Decimal.Written
import CycleCost.Proofs.Document.Parts
import CycleCost.Proofs.Document.Scan

namespace CycleCost.Document

open Decimal (Numeral written)

namespace Json

/-- The one token of a value without parts. -/
def scalarToken : Datum → Token
  | .bool b => .bool b
  | .integer n => .number (Numeral.ofInt n)
  | .real x => if x.isFinite then .number (written x) else .null
  | .text s => .text (some s)
  | _ => .null

mutual

/-- The tokens of a value. -/
def spelling : Datum → List Token
  | .list items => .listBegin :: (itemsSpelling items ++ [.listEnd])
  | .table members => .tableBegin :: (membersSpelling members ++ [.tableEnd])
  | d => [scalarToken d]

/-- The tokens of items, with commas between them. -/
def itemsSpelling : List Datum → List Token
  | [] => []
  | [d] => spelling d
  | d :: rest => spelling d ++ .comma :: itemsSpelling rest

/-- The tokens of members, with commas between them. -/
def membersSpelling : List (String × Datum) → List Token
  | [] => []
  | [(name, d)] => .text (some name) :: .colon :: spelling d
  | (name, d) :: rest =>
    .text (some name) :: .colon :: (spelling d ++ .comma :: membersSpelling rest)

end

theorem compact_of_isScalar {d : Datum} (scalar : d.isScalar) : compact d = scalarText d := by
  cases d <;> first | rfl | cases scalar

theorem pretty_of_isScalar (depth : Nat) {d : Datum} (scalar : d.isScalar) : pretty depth d = scalarText d := by
  cases d <;> first | rfl | cases scalar

theorem spelling_of_isScalar {d : Datum} (scalar : d.isScalar) : spelling d = [scalarToken d] := by
  cases d <;> first | rfl | cases scalar

/-! ### From values to tokens -/

/-- The text has the tokens, and then come those of what follows it. -/
def Spells (text : String) (ts : List Token) : Prop :=
  ∀ rest, Stops rest → tokens (text.toList ++ rest) = (tokens rest).map (ts ++ ·)

/-- The text of a finite float is the spelling of its numeral. -/
theorem realText_of_isFinite {x : Float} (finite : x.isFinite) :
    realText x = String.ofList (written x).spelled := by
  rw [realText, if_pos finite, Decimal.text_document finite]

/-- The text of a scalar spells its token. -/
theorem spells_scalar : ∀ {d : Datum}, d.isScalar → Spells (scalarText d) [scalarToken d]
  | .null, _ | .unusable, _ => fun rest _ => by simp [scalarText, scalarToken]
  | .bool b, _ => fun rest _ => by cases b <;> simp [scalarText, scalarToken]
  | .integer n, _ => fun rest stops => by
    have spelled := tokens_spelled (Numeral.ofInt_regular n) stops
    rw [Numeral.ofInt_spelled] at spelled
    exact spelled
  | .real x, _ => fun rest stops => by
    by_cases finite : x.isFinite
    · have spelled := tokens_spelled (Decimal.written_regular x) stops
      rw [scalarText, realText_of_isFinite finite, String.toList_ofList, scalarToken, if_pos finite]
      exact spelled
    · rw [scalarText, realText, if_neg finite, scalarToken, if_neg finite]
      simp
  | .text s, _ => fun rest _ => tokens_quoted rest s

theorem spells_compactItems {items : List Datum}
    (each : ∀ d ∈ items, Spells (compact d) (spelling d)) :
    Spells (compactItems items) (itemsSpelling items) := by
  intro rest stops
  induction items with
  | nil => simp [compactItems, itemsSpelling]
  | cons d tail ih =>
    cases tail with
    | nil => simpa [compactItems, itemsSpelling] using each d List.mem_cons_self rest stops
    | cons e tail =>
      have next := ih fun d h => each d (List.mem_cons_of_mem _ h)
      have first := each d List.mem_cons_self (',' :: ((compactItems (e :: tail)).toList ++ rest)) (by simp)
      simp [compactItems, itemsSpelling, first, next, Option.map_map, Function.comp_def]

theorem spells_compactMembers {members : List (String × Datum)}
    (each : ∀ m ∈ members, Spells (compact m.2) (spelling m.2)) :
    Spells (compactMembers members) (membersSpelling members) := by
  intro rest stops
  induction members with
  | nil => simp [compactMembers, membersSpelling]
  | cons m tail ih =>
    rcases m with ⟨name, d⟩
    have first := each _ List.mem_cons_self
    cases tail with
    | nil =>
      simp [compactMembers, membersSpelling, tokens_quoted, first rest stops, Option.map_map,
        Function.comp_def]
    | cons e tail =>
      have next := ih fun d h => each d (List.mem_cons_of_mem _ h)
      have value := first (',' :: ((compactMembers (e :: tail)).toList ++ rest)) (by simp)
      simp [compactMembers, membersSpelling, tokens_quoted, value, next, Option.map_map,
        Function.comp_def]

/-- The compact text of a value spells its tokens. -/
theorem spells_compact (d : Datum) : Spells (compact d) (spelling d) := by
  induction d using Datum.recParts with
  | list items ih =>
    intro rest stops
    have items := spells_compactItems ih (']' :: rest) (by simp)
    simp [compact, spelling, items, Option.map_map, Function.comp_def]
  | table members ih =>
    intro rest stops
    have members := spells_compactMembers ih ('\x7d' :: rest) (by simp)
    simp [compact, spelling, members, Option.map_map, Function.comp_def]
  | scalar d scalar =>
    rw [compact_of_isScalar scalar, spelling_of_isScalar scalar]
    exact spells_scalar scalar

theorem spells_prettyItems {depth : Nat} {items : List Datum}
    (each : ∀ d ∈ items, Spells (pretty depth d) (spelling d)) :
    Spells (prettyItems depth items) (itemsSpelling items) := by
  intro rest stops
  induction items with
  | nil => simp [prettyItems, itemsSpelling]
  | cons d tail ih =>
    cases tail with
    | nil => simpa [prettyItems, itemsSpelling, margin] using each d List.mem_cons_self rest stops
    | cons e tail =>
      have next := ih fun d h => each d (List.mem_cons_of_mem _ h)
      have first := each d List.mem_cons_self
        (',' :: '\n' :: ((prettyItems depth (e :: tail)).toList ++ rest)) (by simp)
      simp [prettyItems, itemsSpelling, margin, first, next, Option.map_map, Function.comp_def]

theorem spells_prettyMembers {depth : Nat} {members : List (String × Datum)}
    (each : ∀ m ∈ members, Spells (pretty depth m.2) (spelling m.2)) :
    Spells (prettyMembers depth members) (membersSpelling members) := by
  intro rest stops
  induction members with
  | nil => simp [prettyMembers, membersSpelling]
  | cons m tail ih =>
    rcases m with ⟨name, d⟩
    have first := each _ List.mem_cons_self
    cases tail with
    | nil =>
      simp [prettyMembers, membersSpelling, margin, tokens_quoted, first rest stops, Option.map_map,
        Function.comp_def]
    | cons e tail =>
      have next := ih fun d h => each d (List.mem_cons_of_mem _ h)
      have value := first (',' :: '\n' :: ((prettyMembers depth (e :: tail)).toList ++ rest)) (by simp)
      simp [prettyMembers, membersSpelling, margin, tokens_quoted, value, next, Option.map_map,
        Function.comp_def]

/-- The indented text of a value spells its tokens, at any depth. -/
theorem spells_pretty (d : Datum) (depth : Nat) : Spells (pretty depth d) (spelling d) := by
  induction d using Datum.recParts generalizing depth with
  | list items ih =>
    intro rest stops
    cases items with
    | nil => simp [pretty, spelling, itemsSpelling, Option.map_map, Function.comp_def]
    | cons d tail =>
      have items := spells_prettyItems (fun d h => ih d h (depth + 1))
        ('\n' :: ((margin depth).toList ++ ']' :: rest)) (by simp)
      simp [pretty, spelling, margin] at items ⊢
      simp [items, Option.map_map, Function.comp_def]
  | table members ih =>
    intro rest stops
    cases members with
    | nil => simp [pretty, spelling, membersSpelling, Option.map_map, Function.comp_def]
    | cons m tail =>
      have members := spells_prettyMembers (fun m h => ih m h (depth + 1))
        ('\n' :: ((margin depth).toList ++ '\x7d' :: rest)) (by simp)
      simp [pretty, spelling, margin] at members ⊢
      simp [members, Option.map_map, Function.comp_def]
  | scalar d scalar =>
    rw [pretty_of_isScalar depth scalar, spelling_of_isScalar scalar]
    exact spells_scalar scalar

/-! ### From tokens to values -/

section

open State

variable {float : Numeral → Float}

/-- What a scalar is read as. -/
def readScalar (float : Numeral → Float) : Datum → Datum
  | .integer n => .ofNumeral float (Numeral.ofInt n)
  | .real x => if x.isFinite then .ofNumeral float (written x) else .null
  | .unusable => .null
  | d => d

/-- What a value is read as. -/
def readAs (float : Numeral → Float) : Datum → Datum := Datum.mapScalars (readScalar float)

/-- Items are read one after another onto those that have been read. -/
theorem step_items {items : List Datum} (nonempty : items ≠ [])
    (each : ∀ d ∈ items, ∀ stack,
      (spelling d).foldlM (step float) ⟨stack, .value⟩ = complete (readAs float d) stack)
    (before : List Datum) (rest : List Frame) :
    (itemsSpelling items).foldlM (step float) ⟨.list before :: rest, .value⟩ =
      some ⟨.list ((items.map (readAs float)).reverse ++ before) :: rest, .separator⟩ := by
  induction items generalizing before with
  | nil => exact absurd rfl nonempty
  | cons d tail ih =>
    have first := each d List.mem_cons_self
    cases tail with
    | nil => simp [itemsSpelling, first, complete]
    | cons e tail =>
      have next := ih (by simp) fun d h => each d (List.mem_cons_of_mem _ h)
      simp [itemsSpelling, List.foldlM_append, first, complete, step, stepSeparator, next]

/-- Members as the reader keeps them, the latest first. -/
def kept (members : List (String × Datum)) : List (Option String × Datum) :=
  members.reverse.map fun m => (some m.1, m.2)

/-- The tokens of members are read as the members, when those of each value are. -/
theorem step_members {members : List (String × Datum)} (nonempty : members ≠ [])
    (each : ∀ m ∈ members, ∀ stack,
      (spelling m.2).foldlM (step float) ⟨stack, .value⟩ = complete (readAs float m.2) stack)
    (before : List (Option String × Datum)) (rest : List Frame) :
    (membersSpelling members).foldlM (step float) ⟨.table before :: rest, .name⟩ =
      some ⟨.table (kept (members.map fun m => (m.1, readAs float m.2)) ++ before) :: rest, .separator⟩ := by
  induction members generalizing before with
  | nil => exact absurd rfl nonempty
  | cons m tail ih =>
    rcases m with ⟨name, d⟩
    have first := each _ List.mem_cons_self
    cases tail with
    | nil => simp [membersSpelling, step, stepName, first, complete, kept]
    | cons e tail =>
      have next := ih (by simp) fun d h => each d (List.mem_cons_of_mem _ h)
      simp [membersSpelling, List.foldlM_append, step, stepName, first, complete, stepSeparator, next, kept]

theorem mapM_named (ms : List (String × Datum)) :
    (ms.map fun m => (some m.1, m.2)).mapM (fun (m : Option String × Datum) => m.1.map fun s => (s, m.2)) =
      some ms := by
  induction ms with
  | nil => rfl
  | cons m ms ih => simp [List.mapM_cons, ih]

/-- A table whose names are all there is closed with its members in order. -/
theorem closeTable_kept (members : List (String × Datum)) : closeTable (kept members) = .table members := by
  have named := mapM_named members.reverse
  unfold closeTable
  split
  · next found =>
    cases named.symm.trans found
    rw [List.reverse_reverse]
  · next missing => cases named.symm.trans missing

/-- No scalar is written like the end of a list. -/
theorem scalarToken_ne_listEnd (d : Datum) : scalarToken d ≠ .listEnd := by
  cases d with
  | real x =>
    rw [scalarToken]
    split <;> nofun
  | _ => nofun

/-- No value begins like the end of a list, so the first item is read like any other. -/
theorem foldlM_itemOrEnd {d : Datum} {behind : List Token} (stack : List Frame) :
    (spelling d ++ behind).foldlM (step float) ⟨stack, .itemOrEnd⟩ =
      (spelling d ++ behind).foldlM (step float) ⟨stack, .value⟩ := by
  cases d <;> simp [spelling, step, scalarToken_ne_listEnd]

theorem foldlM_items_itemOrEnd {items : List Datum} (nonempty : items ≠ []) {behind : List Token}
    (stack : List Frame) :
    (itemsSpelling items ++ behind).foldlM (step float) ⟨stack, .itemOrEnd⟩ =
      (itemsSpelling items ++ behind).foldlM (step float) ⟨stack, .value⟩ := by
  cases items with
  | nil => exact absurd rfl nonempty
  | cons d tail =>
    cases tail with
    | nil => exact foldlM_itemOrEnd stack
    | cons e tail => simp only [itemsSpelling, List.append_assoc, foldlM_itemOrEnd]

theorem foldlM_members_nameOrEnd {members : List (String × Datum)} (nonempty : members ≠ [])
    {behind : List Token} (stack : List Frame) :
    (membersSpelling members ++ behind).foldlM (step float) ⟨stack, .nameOrEnd⟩ =
      (membersSpelling members ++ behind).foldlM (step float) ⟨stack, .name⟩ := by
  cases members with
  | nil => exact absurd rfl nonempty
  | cons m tail => cases tail <;> simp [membersSpelling, step]

/-- The token of a scalar completes the value that it is read as. -/
theorem stepValue_scalar {d : Datum} (scalar : d.isScalar) (stack : List Frame) :
    stepValue float stack (scalarToken d) = complete (readScalar float d) stack := by
  cases d with
  | real x =>
    rw [scalarToken, readScalar]
    split <;> rfl
  | list _ => cases scalar
  | table _ => cases scalar
  | _ => rfl

/-- The tokens of a value lead to the value that it is read as. -/
theorem foldlM_spelling (d : Datum) (stack : List Frame) :
    (spelling d).foldlM (step float) ⟨stack, .value⟩ = complete (readAs float d) stack := by
  induction d using Datum.recParts generalizing stack with
  | list items ih =>
    rw [readAs, Datum.mapScalars_list, ← readAs]
    by_cases empty : items = []
    · subst empty
      simp [spelling, itemsSpelling, step, stepValue, stepSeparator]
    · have read := step_items empty ih [] stack
      simp only [spelling, List.foldlM_cons, step, stepValue, Option.bind_eq_bind, Option.bind_some]
      rw [foldlM_items_itemOrEnd empty, List.foldlM_append, read]
      simp [step, stepSeparator]
  | table members ih =>
    rw [readAs, Datum.mapScalars_table, ← readAs]
    by_cases empty : members = []
    · subst empty
      simp [spelling, membersSpelling, step, stepValue, stepSeparator, closeTable]
    · have read := step_members empty ih [] stack
      simp only [spelling, List.foldlM_cons, step, stepValue, Option.bind_eq_bind, Option.bind_some]
      rw [foldlM_members_nameOrEnd empty, List.foldlM_append, read]
      simp [step, stepSeparator, closeTable_kept]
  | scalar d scalar =>
    rw [readAs, Datum.mapScalars_of_isScalar _ scalar]
    simp [spelling_of_isScalar scalar, step, stepValue_scalar scalar]

end

/-- A text that spells the tokens of a value is read as the value, its scalars as they are read. -/
theorem parse_of_spells (float : Numeral → Float) {d : Datum} {text : String} (spells : Spells text (spelling d)) :
    parse float text = some (readAs float d) := by
  have ts := spells [] stops_nil
  rw [List.append_nil] at ts
  rw [parse, ts]
  simp [build, State.start, foldlM_spelling, State.complete]

theorem parse_compact (float : Numeral → Float) (d : Datum) : parse float (compact d) = some (readAs float d) :=
  parse_of_spells float (spells_compact d)

theorem parse_pretty (float : Numeral → Float) (d : Datum) (depth : Nat) :
    parse float (pretty depth d) = some (readAs float d) :=
  parse_of_spells float (spells_pretty d depth)

end Json

end CycleCost.Document
