/-
Module: CycleCost.Proofs.Document.Numeric
Purpose: The library of the program does what is relied on of a library, whichever float its reader has for a
  numeral. It keeps exactly the finite floats whose own numeral is read as the float: all of them if every
  numeral is read as the nearest float, and not all of them as the program reads numerals.
Main exports: ofNumeral_ofInt, lawful_numeric, keeps_numeric_iff, tells_numeric_iff, keepsFloats_nearest
-/
import CycleCost.Proofs.Document.Bounds
import CycleCost.Proofs.Document.Library
import CycleCost.Proofs.Document.Spelling

namespace CycleCost.Document.Json

open Decimal (Numeral written)

variable {float : Numeral → Float} {x : Float}

/-- Integers of 64 bits, with a sign or without, are read as they were written. -/
theorem ofNumeral_ofInt {n : Int} (low : Int64.minValue.toInt ≤ n) (high : n < UInt64.size) :
    Datum.ofNumeral float (Numeral.ofInt n) = .integer n := by
  have whole : (Numeral.ofInt n).isWhole = true := rfl
  have negative : (Numeral.ofInt n).negative = decide (n < 0) := rfl
  have signed : (decide (n < 0) && decide (n = 0)) = false := by
    rw [Bool.and_eq_false_iff, decide_eq_false_iff_not, decide_eq_false_iff_not]
    omega
  rw [Datum.ofNumeral, whole, negative, Decimal.Numeral.ofInt_wholeValue, signed, decide_eq_true low,
    decide_eq_true high]
  rfl

/-- A written float is no whole numeral, so it is read as a float or is beyond the floats. -/
theorem ofNumeral_written (x : Float) : Datum.ofNumeral float (written x) =
    if (float (written x)).isFinite then .real (float (written x)) else .unusable := by
  rw [Datum.ofNumeral, Decimal.written_isWhole]
  rfl

/-- A writer is faithful when the reader finds in each of its texts what the value is read as. -/
theorem faithful_of_parse {write : Datum → String} (read : ∀ d, parse float (write d) = some (readAs float d))
    (notFinite : ∀ {x : Float}, x.isFinite = false → write (.real x) = write .null) :
    Faithful (parse float) write where
  null := read .null
  bool b := read (.bool b)
  integer {n} low high := by
    rw [read]
    exact congrArg some (ofNumeral_ofInt low high)
  text s := read (.text s)
  notFinite := notFinite
  list {items items'} _ each := by
    have same : items.map (readAs float) = items' := by
      rw [← List.forall₂_eq_eq_eq, List.forall₂_map_left_iff]
      exact each.imp fun d d' found => Option.some.inj ((read d).symm.trans found)
    rw [read, readAs, Datum.mapScalars_list, ← readAs, same]
  table {members members'} _ each := by
    have same : members.map (fun m => (m.1, readAs float m.2)) = members' := by
      rw [← List.forall₂_eq_eq_eq, List.forall₂_map_left_iff]
      exact each.imp fun m m' found => Prod.ext found.1 (Option.some.inj ((read m.2).symm.trans found.2))
    rw [read, readAs, Datum.mapScalars_table, ← readAs, same]

/-- A float that is not finite is written as null. -/
theorem scalarText_of_not_finite (infinite : x.isFinite = false) : scalarText (.real x) = scalarText .null := by
  rw [scalarText, realText, infinite]
  rfl

/-- Whichever float stands for a numeral, all else is read as it was written. -/
theorem lawful_numeric (float : Numeral → Float) : (numeric float).Lawful where
  bounded := bounded_of_parse
  compact := faithful_of_parse (parse_compact float) scalarText_of_not_finite
  pretty := faithful_of_parse (fun d => parse_pretty float d 0) scalarText_of_not_finite

/-- A reader by numerals reads both layouts of a value, its floats by the reading of their numerals. -/
theorem parse_numeric (float : Numeral → Float) (d : Datum) :
    (numeric float).parse ((numeric float).compact d) = some (readAs float d) ∧
      (numeric float).parse ((numeric float).pretty d) = some (readAs float d) :=
  ⟨parse_compact float d, parse_pretty float d 0⟩

/-- A finite float is read by its numeral, and cannot be used where that leaves the range. -/
theorem readAs_real (finite : x.isFinite) : readAs float (.real x) =
    if (float (written x)).isFinite then .real (float (written x)) else .unusable := by
  rw [readAs, Datum.mapScalars_of_isScalar _ rfl, readScalar, if_pos finite, ofNumeral_written]

/-- A float that is not finite is read as null. -/
theorem readAs_real_of_not_finite (infinite : ¬ x.isFinite) : readAs float (.real x) = .null := by
  rw [readAs, Datum.mapScalars_of_isScalar _ rfl, readScalar, if_neg infinite]

/-- A float is kept when it is finite and its numeral reads as the float itself. -/
theorem keeps_numeric_iff : (numeric float).Keeps x ↔ x.isFinite ∧ float (written x) = x := by
  obtain ⟨compact, pretty⟩ := parse_numeric float (.real x)
  rw [Library.Keeps, compact, pretty, and_self, Option.some_inj]
  by_cases finite : x.isFinite
  · rw [readAs_real finite]
    by_cases inRange : (float (written x)).isFinite
    · simp [inRange, finite]
    · have other : float (written x) ≠ x := fun same => inRange (by rwa [same])
      simp [inRange, other]
  · rw [readAs_real_of_not_finite finite]
    simp [finite]

/-- A float is told when it is finite and its numeral reads as some finite float. -/
theorem tells_numeric_iff : (numeric float).Tells x ↔ x.isFinite ∧ (float (written x)).isFinite := by
  obtain ⟨compact, pretty⟩ := parse_numeric float (.real x)
  rw [Library.Tells, compact, pretty, and_self]
  by_cases finite : x.isFinite
  · rw [readAs_real finite]
    by_cases inRange : (float (written x)).isFinite <;> simp [inRange, finite, isNumber]
  · rw [readAs_real_of_not_finite finite]
    simp [finite, isNumber]

/-- The floats in a value are kept when each of their numerals reads as the float. -/
theorem keepsFloats_numeric {d : Datum} (same : ∀ x ∈ d.reals, x.isFinite → float (written x) = x) :
    (numeric float).KeepsFloats d :=
  fun x there finite => keeps_numeric_iff.2 ⟨finite, same x there finite⟩

/-- The floats in a value are told when each of their numerals reads as a finite float. -/
theorem tellsFloats_numeric {d : Datum} (numbers : ∀ x ∈ d.reals, x.isFinite → (float (written x)).isFinite) :
    (numeric float).TellsFloats d :=
  fun x there finite => tells_numeric_iff.2 ⟨finite, numbers x there finite⟩

/-- With the nearest float for every numeral all finite floats are kept. -/
theorem keepsFloats_nearest {d : Datum} : (numeric Numeral.toFloat).KeepsFloats d :=
  keepsFloats_numeric fun _ _ finite => Decimal.written_toFloat finite

/-- The power of ten is rounded before the quotient is. -/
example : ¬ standard.Keeps 3.5e-300 := fun kept => by
  have same := (keeps_numeric_iff.1 kept).2
  revert same
  decide +kernel

end CycleCost.Document.Json
