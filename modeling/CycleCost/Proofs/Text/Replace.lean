/-
Module: CycleCost.Proofs.Text.Replace
Purpose: What replacing does to a text, said without the count of the characters that are still skipped: an occurrence
  at the start is replaced, any other start stays. A text without an occurrence is left alone, and a character that
  the sought text does not hold parts a text into pieces that are replaced on their own.
Main exports: Text.replaceFrom_append, Text.replaceFrom_cons, Text.replaceInduction, Text.replaceFrom_of_not_infix,
  Text.replaceFrom_append_cons
-/
import CycleCost.Text
import Mathlib.Data.List.Infix

namespace CycleCost.Text

variable {needle replacement text front rest : List Char} {c : Char}

@[simp] theorem toList_replace (needle replacement text : String) :
    (replace needle replacement text).toList =
      replaceFrom needle.toList replacement.toList 0 text.toList := String.toList_ofList

/-- Characters that belong to an occurrence are skipped. -/
theorem replaceFrom_skip (skipped rest : List Char) :
    replaceFrom needle replacement skipped.length (skipped ++ rest) = replaceFrom needle replacement 0 rest := by
  induction skipped with
  | nil => rfl
  | cons c skipped ih => exact ih

/-- An occurrence at the start is replaced. -/
theorem replaceFrom_append (present : needle ≠ []) (rest : List Char) :
    replaceFrom needle replacement 0 (needle ++ rest) = replacement ++ replaceFrom needle replacement 0 rest := by
  obtain ⟨c, more, rfl⟩ := List.exists_cons_of_ne_nil present
  have starts : (c :: more).isPrefixOf (c :: (more ++ rest)) = true :=
    List.isPrefixOf_iff_prefix.2 (List.prefix_append (c :: more) rest)
  rw [List.cons_append, replaceFrom, if_pos starts, List.length_cons, Nat.add_sub_cancel, replaceFrom_skip]

/-- A start without an occurrence stays. -/
theorem replaceFrom_cons (missed : ¬ needle <+: c :: rest) :
    replaceFrom needle replacement 0 (c :: rest) = c :: replaceFrom needle replacement 0 rest := by
  rw [replaceFrom, if_neg (mt List.isPrefixOf_iff_prefix.1 missed)]

/-- What holds of the empty text, and still holds with an occurrence or with a start that is none put in front, holds
    of every text. -/
@[elab_as_elim] theorem replaceInduction {motive : List Char → Prop} (present : needle ≠ []) (nil : motive [])
    (found : ∀ rest, motive rest → motive (needle ++ rest))
    (missed : ∀ c rest, ¬ needle <+: c :: rest → motive rest → motive (c :: rest)) (text : List Char) :
    motive text := by
  induction size : text.length using Nat.strongRecOn generalizing text with
  | ind n ih =>
    by_cases starts : needle <+: text
    · obtain ⟨rest, rfl⟩ := starts
      refine found rest (ih rest.length ?_ rest rfl)
      have positive := List.length_pos_of_ne_nil present
      rw [← size, List.length_append]
      omega
    · cases text with
      | nil => exact nil
      | cons c rest => exact missed c rest starts (ih rest.length (by rw [← size]; exact Nat.lt_succ_self _) rest rfl)

/-- Nothing is replaced where nothing is found. -/
theorem replaceFrom_of_not_infix (present : needle ≠ []) (absent : ¬ needle <:+: text) :
    replaceFrom needle replacement 0 text = text := by
  induction text using replaceInduction present with
  | nil => rfl
  | found rest => exact absurd (List.prefix_append needle rest).isInfix absent
  | missed c rest other ih => rw [replaceFrom_cons other, ih fun inside => absent (List.infix_cons inside)]

/-- What begins in front of a character that it does not hold ends in front of it. -/
theorem prefix_of_prefix_append_cons (absent : c ∉ needle) (starts : needle <+: front ++ c :: rest) :
    needle <+: front := by
  have head : front ++ [c] <+: front ++ c :: rest := ⟨rest, List.append_cons .. |>.symm⟩
  have inside {longer : List Char} (behind : front ++ [c] <+: longer) : c ∈ longer :=
    behind.mem (List.mem_append_right front List.mem_cons_self)
  rcases List.prefix_or_prefix_of_prefix starts head with short | long
  · rcases List.prefix_concat_iff.1 short with rfl | shorter
    · exact absurd (inside List.prefix_rfl) absent
    · exact shorter
  · exact absurd (inside long) absent

/-- No occurrence reaches over a character that it does not hold. -/
theorem replaceFrom_append_cons (present : needle ≠ []) (absent : c ∉ needle) (front rest : List Char) :
    replaceFrom needle replacement 0 (front ++ c :: rest) =
      replaceFrom needle replacement 0 front ++ c :: replaceFrom needle replacement 0 rest := by
  have before {front : List Char} (starts : needle <+: front ++ c :: rest) := prefix_of_prefix_append_cons absent starts
  induction front using replaceInduction present with
  | nil => exact replaceFrom_cons fun starts => present (List.prefix_nil.1 (before starts))
  | found behind ih =>
    rw [List.append_assoc, replaceFrom_append present, ih, replaceFrom_append present, List.append_assoc]
  | missed d behind other ih =>
    have other' : ¬ needle <+: d :: (behind ++ c :: rest) := fun starts => other (@before (d :: behind) starts)
    rw [List.cons_append, replaceFrom_cons other', ih, replaceFrom_cons other, List.cons_append]

end CycleCost.Text
