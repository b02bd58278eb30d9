/-
Module: CycleCost.Proofs.Text.Lines
Purpose: Cutting a text gives back the parts that it was put together from: fields that do not hold the separator,
  and lines that hold neither a line break nor a carriage return. What the parts of any text are is said without
  cutting it, by how they make it up.
Main exports: Text.split_append, Text.Fields, Text.split_eq_iff, Text.isUnbroken, Text.lines_flatMap,
  Text.FallsInto, Text.lines_eq_iff, Text.Complete, Text.lines_append
-/
import CycleCost.Text

namespace CycleCost.Text

variable {separator : Char}

/-! ### Fields -/

/-- Nothing is cut where no separator stands. -/
theorem split_of_not_mem {part : List Char} (h : separator ∉ part) : split separator part = [part] := by
  induction part with
  | nil => rfl
  | cons c rest ih =>
    rw [split, if_neg (List.ne_of_not_mem_cons h).symm, ih (List.not_mem_of_not_mem_cons h)]

/-- The first field ends at the first separator. -/
theorem split_append {part : List Char} (h : separator ∉ part) (rest : List Char) :
    split separator (part ++ separator :: rest) = part :: split separator rest := by
  induction part with
  | nil => exact if_pos rfl
  | cons c front ih =>
    rw [List.cons_append, split, if_neg (List.ne_of_not_mem_cons h).symm, ih (List.not_mem_of_not_mem_cons h)]

/-- Parts with a separator behind each, and a last one. -/
theorem split_flatMap {parts : List (List Char)} {last : List Char} (h : ∀ part ∈ parts, separator ∉ part)
    (free : separator ∉ last) :
    split separator (parts.flatMap (· ++ [separator]) ++ last) = parts ++ [last] := by
  induction parts with
  | nil => exact split_of_not_mem free
  | cons part rest ih =>
    obtain ⟨first, others⟩ := List.forall_mem_cons.1 h
    rw [List.flatMap_cons, List.append_assoc, List.append_assoc, List.singleton_append, split_append first,
      ih others, List.cons_append]

/-- What holds of every part, and still holds with a part put in front, holds of every text. -/
@[elab_as_elim] theorem cutInduction {motive : List Char → Prop} (separator : Char)
    (free : ∀ part, separator ∉ part → motive part)
    (cut : ∀ part rest, separator ∉ part → motive rest → motive (part ++ separator :: rest))
    (text : List Char) : motive text := by
  induction size : text.length using Nat.strongRecOn generalizing text with
  | ind n ih =>
    by_cases member : separator ∈ text
    · obtain ⟨part, rest, rfl, absent⟩ := List.eq_append_cons_of_mem member
      refine cut part rest absent (ih rest.length ?_ rest rfl)
      rw [← size, List.length_append, List.length_cons]
      omega
    · exact free text member

/-- A text is cut on both sides of a separator. -/
theorem split_append_separator (before behind : List Char) :
    split separator (before ++ separator :: behind) = split separator before ++ split separator behind := by
  induction before using cutInduction separator with
  | free part free => rw [split_append free, split_of_not_mem free, List.singleton_append]
  | cut part rest free ih =>
    rw [List.append_assoc, List.cons_append, split_append free, split_append free, ih, List.cons_append]

/-- The fields of a text: none of them holds the separator, and joined with it they are the text. -/
structure Fields (separator : Char) (text : List Char) (fields : List (List Char)) : Prop where
  present : fields ≠ []
  free : ∀ field ∈ fields, separator ∉ field
  joined : [separator].intercalate fields = text

theorem fields_split (separator : Char) (text : List Char) : Fields separator text (split separator text) := by
  induction text using cutInduction separator with
  | free part absent =>
    rw [split_of_not_mem absent]
    exact ⟨List.cons_ne_nil _ _, List.forall_mem_singleton.2 absent, List.intercalate_singleton⟩
  | cut part rest absent ih =>
    rw [split_append absent]
    refine ⟨List.cons_ne_nil _ _, List.forall_mem_cons.2 ⟨absent, ih.free⟩, ?_⟩
    obtain ⟨next, more, shape⟩ := List.exists_cons_of_ne_nil ih.present
    have joined := ih.joined
    rw [shape] at joined ⊢
    rw [List.intercalate_cons_cons, joined, List.append_assoc, List.singleton_append]

/-- A text has one list of fields, and splitting gives it. -/
theorem split_eq_iff {text : List Char} {fields : List (List Char)} :
    split separator text = fields ↔ Fields separator text fields := by
  refine ⟨fun cut => cut ▸ fields_split separator text, ?_⟩
  rintro ⟨present, free, rfl⟩
  induction fields with
  | nil => exact absurd rfl present
  | cons part rest ih =>
    obtain ⟨first, others⟩ := List.forall_mem_cons.1 free
    cases rest with
    | nil => rw [List.intercalate_singleton, split_of_not_mem first]
    | cons next more =>
      rw [List.intercalate_cons_cons, List.append_assoc, List.singleton_append, split_append first,
        ih (List.cons_ne_nil _ _) others]

/-- What begins without a separator begins the first field. -/
theorem split_append_of_not_mem {front : List Char} (absent : separator ∉ front) (text : List Char) :
    ∃ part parts, split separator (front ++ text) = (front ++ part) :: parts := by
  induction text using cutInduction separator with
  | free part free => exact ⟨part, [], split_of_not_mem (by simp [absent, free])⟩
  | cut part rest free _ =>
    refine ⟨part, split separator rest, ?_⟩
    rw [← List.append_assoc, split_append (by simp [absent, free])]

/-! ### Lines -/

/-- A line holds neither a line break nor a carriage return. -/
def isUnbroken (line : List Char) : Bool := line.all fun c => c != '\n' && c != '\r'

@[simp] theorem isUnbroken_nil : isUnbroken [] = true := rfl

@[simp] theorem isUnbroken_cons (c : Char) (rest : List Char) :
    isUnbroken (c :: rest) = ((c != '\n' && c != '\r') && isUnbroken rest) := rfl

@[simp] theorem isUnbroken_append (front behind : List Char) :
    isUnbroken (front ++ behind) = (isUnbroken front && isUnbroken behind) := List.all_append

/-- Digits of any base stand on one line. -/
@[simp] theorem isUnbroken_toDigits (base n : Nat) : isUnbroken (Nat.toDigits (base + 2) n) = true := by
  have digit (d : Nat) : isUnbroken [d.digitChar] = true := by
    fun_cases Nat.digitChar d <;> rfl
  induction n using Nat.strongRecOn with
  | ind n ih =>
    rcases Nat.lt_or_ge n (base + 2) with small | large
    · rw [Nat.toDigits_of_lt_base small, digit]
    · have shorter := ih (n / (base + 2)) (Nat.div_lt_self (by omega) (by omega))
      rw [Nat.toDigits_of_base_le (by omega) large, isUnbroken_append, shorter, digit]
      rfl

theorem not_mem_of_isUnbroken {line : List Char} (h : isUnbroken line = true) : '\n' ∉ line ∧ '\r' ∉ line := by
  rw [isUnbroken, List.all_eq_true] at h
  exact ⟨fun member => absurd (h _ member) (by decide), fun member => absurd (h _ member) (by decide)⟩

theorem withoutReturn_of_isUnbroken {line : List Char} (h : isUnbroken line = true) : withoutReturn line = line :=
  if_neg fun last => (not_mem_of_isUnbroken h).2 (List.mem_of_getLast? last)

/-- The lines of a text are those that it was put together from. -/
theorem lines_flatMap {all : List (List Char)} (h : ∀ line ∈ all, isUnbroken line = true) :
    lines (all.flatMap (· ++ ['\n'])) = all := by
  have parts : split '\n' (all.flatMap (· ++ ['\n'])) = all ++ [[]] := by
    have cut := split_flatMap (fun line member => (not_mem_of_isUnbroken (h line member)).1) (List.not_mem_nil)
    rwa [List.append_nil] at cut
  have kept : all.map withoutReturn = all := by
    rw [List.map_congr_left fun line member => withoutReturn_of_isUnbroken (h line member), List.map_id']
  rw [lines, parts, List.dropLast_concat, List.getLast?_concat]
  exact kept

/-- How a text falls into lines. A line ends with a line break or with a carriage return and a line break, which
    are no part of it; the last line may do without, if there is anything in it. -/
inductive FallsInto : List Char → List (List Char) → Prop where
  | nothing : FallsInto [] []
  | last {line : List Char} (present : line ≠ []) (unbroken : '\n' ∉ line) : FallsInto line [line]
  | ended {line rest : List Char} {lines : List (List Char)} (unbroken : '\n' ∉ line)
      (bare : line.getLast? ≠ some '\r') (next : FallsInto rest lines) :
      FallsInto (line ++ '\n' :: rest) (line :: lines)
  | returned {line rest : List Char} {lines : List (List Char)} (unbroken : '\n' ∉ line)
      (next : FallsInto rest lines) : FallsInto (line ++ '\r' :: '\n' :: rest) (line :: lines)

variable {line text rest : List Char} {all : List (List Char)}

theorem withoutReturn_of_ne (bare : line.getLast? ≠ some '\r') : withoutReturn line = line := if_neg bare

theorem withoutReturn_concat (line : List Char) : withoutReturn (line ++ ['\r']) = line := by
  rw [withoutReturn, if_pos List.getLast?_concat, List.dropLast_concat]

theorem lines_of_unbroken (present : line ≠ []) (unbroken : '\n' ∉ line) : lines line = [line] := by
  obtain ⟨c, more, rfl⟩ := List.exists_cons_of_ne_nil present
  rw [lines, split_of_not_mem unbroken]
  rfl

/-- A line break ends the first line. -/
theorem lines_append_break (unbroken : '\n' ∉ line) (rest : List Char) :
    lines (line ++ '\n' :: rest) = withoutReturn line :: lines rest := by
  obtain ⟨before, last, shape⟩ : ∃ before last, split '\n' rest = before ++ [last] :=
    ⟨_, _, (List.dropLast_concat_getLast (fields_split '\n' rest).present).symm⟩
  rw [lines, lines, split_append unbroken, shape, ← List.cons_append]
  simp only [List.dropLast_concat, List.getLast?_concat, List.map_cons]
  cases last <;> rfl

/-- A text falls into its lines. -/
theorem fallsInto_lines (text : List Char) : FallsInto text (lines text) := by
  induction text using cutInduction '\n' with
  | free line unbroken =>
    cases line with
    | nil => exact .nothing
    | cons c more =>
      rw [lines_of_unbroken (List.cons_ne_nil _ _) unbroken]
      exact .last (List.cons_ne_nil _ _) unbroken
  | cut line rest unbroken ih =>
    rw [lines_append_break unbroken]
    by_cases returned : line.getLast? = some '\r'
    · obtain ⟨front, rfl⟩ := List.getLast?_eq_some_iff.1 returned
      rw [withoutReturn_concat, List.append_assoc, List.singleton_append]
      exact .returned (fun member => unbroken (List.mem_append_left _ member)) ih
    · rw [withoutReturn_of_ne returned]
      exact .ended unbroken returned ih

/-- A text falls into lines in one way. -/
theorem lines_eq_iff : lines text = all ↔ FallsInto text all := by
  refine ⟨fun cut => cut ▸ fallsInto_lines text, ?_⟩
  intro falls
  induction falls with
  | nothing => rfl
  | last present unbroken => exact lines_of_unbroken present unbroken
  | ended unbroken bare _ ih => rw [lines_append_break unbroken, withoutReturn_of_ne bare, ih]
  | @returned line rest lines unbroken _ ih =>
    have free : '\n' ∉ line ++ ['\r'] := by simp [unbroken]
    have cut := lines_append_break free rest
    rwa [withoutReturn_concat, List.append_assoc, List.singleton_append, ih] at cut

/-- A text whose last line has its end. -/
def Complete (text : List Char) : Prop := text = [] ∨ text.getLast? = some '\n'

/-- The lines of a complete text stay what they are when more text follows. -/
theorem lines_append (complete : Complete text) (rest : List Char) :
    lines (text ++ rest) = lines text ++ lines rest := by
  induction text using cutInduction '\n' with
  | free line unbroken =>
    rcases complete with rfl | last
    · rfl
    · exact absurd (List.mem_of_getLast? last) unbroken
  | cut line more unbroken ih =>
    have tail : Complete more := by
      rcases complete with empty | last
      · exact absurd empty (by simp)
      · rw [List.append_cons] at last
        cases more with
        | nil => exact .inl rfl
        | cons c rest =>
          rw [List.getLast?_append, List.getLast?_cons, Option.some_or, ← List.getLast?_cons] at last
          exact .inr last
    rw [List.append_assoc, List.cons_append, lines_append_break unbroken, lines_append_break unbroken, ih tail,
      List.cons_append]

/-- What begins a text without a line break begins its first line, if it does not end in a carriage return. -/
theorem lines_append_of_not_mem (present : line ≠ []) (unbroken : '\n' ∉ line)
    (bare : line.getLast? ≠ some '\r') (text : List Char) :
    ∃ more rest, lines (line ++ text) = (line ++ more) :: rest := by
  have filled (part : List Char) : line ++ part ≠ [] := fun empty => present (List.append_eq_nil_iff.1 empty).1
  induction text using cutInduction '\n' with
  | free part free => exact ⟨part, [], lines_of_unbroken (filled part) (by simp [unbroken, free])⟩
  | cut part rest free _ =>
    rw [← List.append_assoc, lines_append_break (by simp [unbroken, free])]
    by_cases returned : part.getLast? = some '\r'
    · obtain ⟨front, rfl⟩ := List.getLast?_eq_some_iff.1 returned
      exact ⟨front, lines rest, by rw [← List.append_assoc, withoutReturn_concat]⟩
    · have kept : (line ++ part).getLast? ≠ some '\r' := by
        rw [List.getLast?_append]
        cases last : part.getLast? with
        | none => exact bare
        | some c => rwa [Option.some_or, ← last]
      exact ⟨part, lines rest, by rw [withoutReturn_of_ne kept]⟩

end CycleCost.Text
