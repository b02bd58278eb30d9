/-
Module: CycleCost.Proofs.Text.Words
Purpose: White space around words, and texts within texts. Trimming and taking the first word take off white space and
  nothing else; what is left of a text that has a solid word between white space is this word.
Main exports: Text.Blank, Text.Solid, Text.exists_trim, Text.trim_append, Text.exists_firstWord,
  Text.firstWord_append, Text.contains_iff
-/
import CycleCost.Text
import Mathlib.Data.List.TakeWhile

namespace CycleCost.Text

/-! ### White space -/

/-- Nothing but white space. -/
def Blank (s : List Char) : Prop := ∀ c ∈ s, isBlank c = true

/-- No white space. -/
def Solid (s : List Char) : Prop := ∀ c ∈ s, isBlank c = false

/-- Digits are no white space. -/
theorem isBlank_of_isDigit {c : Char} (digit : c.isDigit) : isBlank c = false := by
  have range : 48 ≤ c.toNat ∧ c.toNat ≤ 57 := Char.isDigit_iff_toNat.1 digit
  simp only [isBlank, Bool.or_eq_false_iff, Bool.and_eq_false_iff, decide_eq_false_iff_not]
  omega

variable {front word back s : List Char}

theorem Blank.reverse (blank : Blank s) : Blank s.reverse := fun c member => blank c (List.mem_reverse.1 member)

theorem Solid.reverse (solid : Solid s) : Solid s.reverse := fun c member => solid c (List.mem_reverse.1 member)

/-- Dropping white space stops at a solid word. -/
theorem trimLeft_append (blank : Blank front) (solid : Solid word) (present : word ≠ []) (back : List Char) :
    trimLeft (front ++ (word ++ back)) = word ++ back := by
  obtain ⟨c, rest, rfl⟩ := List.exists_cons_of_ne_nil present
  have first : ¬ isBlank c = true := by simp [solid c List.mem_cons_self]
  rw [trimLeft, List.dropWhile_append_of_pos blank, List.cons_append, List.dropWhile_cons_of_neg first]

/-- Trimming cuts blanks in front and nothing else. -/
theorem exists_trimLeft (s : List Char) : ∃ front, Blank front ∧ s = front ++ trimLeft s :=
  ⟨s.takeWhile isBlank, fun _ => List.mem_takeWhile_imp, List.takeWhile_append_dropWhile.symm⟩

/-- Trimming takes off white space only. -/
theorem exists_trim (s : List Char) : ∃ front back, Blank front ∧ Blank back ∧ s = front ++ trim s ++ back := by
  obtain ⟨front, blank, opened⟩ := exists_trimLeft s
  obtain ⟨back, blank', closed⟩ := exists_trimLeft (trimLeft s).reverse
  have whole : trimLeft s = trim s ++ back.reverse := by
    rw [trim, trimRight, ← List.reverse_append]
    exact List.reverse_eq_iff.1 closed
  exact ⟨front, back.reverse, blank, blank'.reverse, by rw [List.append_assoc, ← whole, ← opened]⟩

/-- Trimming finds a solid word between white space. -/
theorem trim_append (blank : Blank front) (solid : Solid word) (present : word ≠ []) (blank' : Blank back) :
    trim (front ++ word ++ back) = word := by
  have closed := trimLeft_append blank'.reverse solid.reverse (mt List.reverse_eq_nil_iff.1 present) []
  rw [trimLeft, List.append_nil, ← List.reverse_append] at closed
  rw [trim, List.append_assoc, trimLeft_append blank solid present, trimRight, closed, List.reverse_reverse]

/-! ### First words -/

/-- A text that is over or goes on with white space. -/
def Parted (s : List Char) : Prop := ∀ c ∈ s.head?, isBlank c = true

/-- Before the first word there is white space, and behind it there is white space or nothing. -/
theorem exists_firstWord (s : List Char) :
    ∃ front back, Blank front ∧ Solid (firstWord s) ∧ Parted back ∧ s = front ++ (firstWord s ++ back) := by
  obtain ⟨front, blank, opened⟩ := exists_trimLeft s
  refine ⟨front, (trimLeft s).dropWhile fun c => !isBlank c, blank, fun c member => ?_, fun c member => ?_, ?_⟩
  · simpa using List.mem_takeWhile_imp member
  · have stop := List.head?_dropWhile_not (fun c => !isBlank c) (trimLeft s)
    rw [Option.mem_def.1 member] at stop
    simpa using stop
  · rw [firstWord, List.takeWhile_append_dropWhile, ← opened]

/-- The first word stands behind the blanks, up to the next one. -/
theorem firstWord_append (blank : Blank front) (solid : Solid word) (present : word ≠ []) (parted : Parted back) :
    firstWord (front ++ (word ++ back)) = word := by
  have inside : ∀ c ∈ word, (!isBlank c) = true := fun c member => by simp [solid c member]
  have behind : (back.takeWhile fun c => !isBlank c) = [] := by
    cases back with
    | nil => rfl
    | cons c rest => exact List.takeWhile_cons_of_neg (by simp [parted c rfl])
  rw [firstWord, trimLeft_append blank solid present, List.takeWhile_append_of_pos inside, behind,
    List.append_nil]

/-! ### Texts within texts -/

/-- The search for a part finds exactly the parts. -/
theorem contains_iff {needle text : List Char} : contains needle text = true ↔ needle <:+: text := by
  induction text with
  | nil => rw [contains, List.isEmpty_iff, List.infix_nil]
  | cons c rest ih => rw [contains, Bool.or_eq_true, List.isPrefixOf_iff_prefix, ih, List.infix_cons_iff]

end CycleCost.Text
