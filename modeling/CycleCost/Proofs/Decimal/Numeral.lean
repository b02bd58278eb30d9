/-
Module: CycleCost.Proofs.Decimal.Numeral
Purpose: Numerals as texts. The digits that spell a natural denote it, and so do the numerals built from them;
  the spelling of a numeral is the one text that a document has for it.
Main exports: digitsValue_append, digitsValue_repr, append_repr_inj, Denotes, Spells, parseUnsigned_eq_some_iff,
  parseUnsigned_repr, Numeral.spelled, Numeral.Regular, Numeral.ofInt
-/
import CycleCost.Decimal.Numeral
import Mathlib.Algebra.Group.Nat.Defs

namespace CycleCost.Decimal

theorem digitsValue_eq (digits : List Char) : digitsValue digits = Nat.ofDigitChars 10 digits 0 := by
  simp only [digitsValue, Nat.ofDigitChars_eq_foldl, Nat.mul_comm]

/-- Digits behind shift the value of those in front of them. -/
theorem digitsValue_append (front behind : List Char) :
    digitsValue (front ++ behind) = digitsValue front * 10 ^ behind.length + digitsValue behind := by
  rw [digitsValue_eq, Nat.ofDigitChars_append, Nat.ofDigitChars_eq_ofDigitChars_zero, ← digitsValue_eq,
    ← digitsValue_eq, Nat.mul_comm]

@[simp] theorem digitsValue_replicate_zero (n : Nat) : digitsValue (List.replicate n '0') = 0 := by
  simp [digitsValue_eq]

@[simp] theorem digitsValue_repr (n : Nat) : digitsValue n.repr.toList = n := by
  rw [digitsValue_eq, Nat.toList_repr, Nat.ofDigitChars_ten_toDigits]

theorem isDigit_of_mem_repr {n : Nat} {c : Char} (h : c ∈ n.repr.toList) : c.isDigit := by
  rw [Nat.toList_repr] at h
  exact Nat.isDigit_of_mem_toDigits (by decide) (by decide) h

theorem repr_toList_ne_nil (n : Nat) : n.repr.toList ≠ [] := by
  rw [Nat.toList_repr]
  exact Nat.toDigits_ne_nil

theorem not_mem_repr {c : Char} (other : ¬ c.isDigit) (n : Nat) : c ∉ n.repr.toList :=
  fun member => other (isDigit_of_mem_repr member)

/-- A natural at the end of a text, behind a character that is no digit, is told by the text, and so is what stands in
    front of it, whatever digits there are. -/
theorem append_repr_inj {front front' : List Char} {c : Char} (other : ¬ c.isDigit) {n n' : Nat} :
    front ++ c :: n.repr.toList = front' ++ c :: n'.repr.toList ↔ front = front' ∧ n = n' := by
  -- Read backwards, the digits go on as far as to the character.
  have digits (front : List Char) (n : Nat) :
      (front ++ c :: n.repr.toList).reverse.takeWhile Char.isDigit = n.repr.toList.reverse := by
    have all : ∀ d ∈ n.repr.toList.reverse, d.isDigit := fun d member => isDigit_of_mem_repr (List.mem_reverse.1 member)
    rw [List.reverse_append, List.reverse_cons, List.append_assoc, List.takeWhile_append_of_pos all,
      List.singleton_append, List.takeWhile_cons_of_neg other, List.append_nil]
  refine ⟨fun same => ?_, fun ⟨fronts, naturals⟩ => by rw [fronts, naturals]⟩
  have spelled := congrArg (fun text => text.reverse.takeWhile Char.isDigit) same
  rw [digits, digits, List.reverse_inj] at spelled
  obtain rfl : n = n' := by rw [← digitsValue_repr n, spelled, digitsValue_repr]
  exact ⟨List.append_cancel_right same, rfl⟩

/-- Only zero is spelled with a zero in front. -/
theorem head_repr_ne_zero {n : Nat} (positive : 0 < n) : n.repr.toList.head? ≠ some '0' := by
  rw [Nat.toList_repr]
  induction n using Nat.strongRecOn with
  | ind n ih =>
    rcases Nat.lt_or_ge n 10 with small | large
    · rw [Nat.toDigits_of_lt_base small]
      simp only [List.head?_cons, ne_eq, Option.some.injEq, Nat.digitChar_eq_zero]
      omega
    · have front := ih (n / 10) (by omega) (by omega)
      rw [Nat.toDigits_of_base_le (by decide) large, List.head?_append]
      cases first : (Nat.toDigits 10 (n / 10)).head? with
      | none => exact absurd (List.head?_eq_none_iff.1 first) Nat.toDigits_ne_nil
      | some c => rwa [Option.some_or, ← first]

/-- Decimal digits, at least one of them and nothing else, that denote a natural. -/
structure Denotes (n : Nat) (text : List Char) : Prop where
  present : text ≠ []
  digit : ∀ c ∈ text, c.isDigit
  value : Nat.ofDigitChars 10 text 0 = n

/-- An unsigned decimal, or one with a plus sign. -/
inductive Spells (n : Nat) : List Char → Prop where
  | plain {text : List Char} (digits : Denotes n text) : Spells n text
  | signed {text : List Char} (digits : Denotes n text) : Spells n ('+' :: text)

/-- The digits printed for a number denote it. -/
theorem denotes_repr (n : Nat) : Denotes n n.repr.toList where
  present := repr_toList_ne_nil n
  digit _ := isDigit_of_mem_repr
  value := by rw [← digitsValue_eq, digitsValue_repr]

theorem Denotes.ne_plus {n : Nat} {text rest : List Char} (digits : Denotes n text) : text ≠ '+' :: rest := by
  rintro rfl
  exact absurd (digits.digit '+' List.mem_cons_self) (by decide)

variable {bound n : Nat} {text : List Char}

theorem Spells.present (spelled : Spells n text) : text ≠ [] := by
  cases spelled with
  | plain digits => exact digits.present
  | signed => exact List.cons_ne_nil _ _

/-- What is read once a plus sign is taken off. -/
theorem parseDigits_eq_some_iff :
    (if text.isEmpty || !text.all Char.isDigit then none
      else if digitsValue text < bound then some (digitsValue text) else none) = some n ↔
      Denotes n text ∧ n < bound := by
  rw [digitsValue_eq]
  constructor
  · intro read
    split at read
    case isTrue => cases read
    case isFalse shape =>
      simp only [Bool.or_eq_true, Bool.not_eq_true', not_or, Bool.not_eq_false, List.all_eq_true] at shape
      split at read
      case isFalse => cases read
      case isTrue small =>
        cases read
        exact ⟨⟨by simpa using shape.1, shape.2, rfl⟩, small⟩
  · rintro ⟨⟨present, digit, rfl⟩, small⟩
    have empty : text.isEmpty = false := by simpa using present
    have all : text.all Char.isDigit = true := List.all_eq_true.2 digit
    rw [empty, all, if_neg (by decide), if_pos small]

/-- Exactly the spellings of the naturals below the bound are read, each as its natural. -/
theorem parseUnsigned_eq_some_iff : parseUnsigned bound text = some n ↔ Spells n text ∧ n < bound := by
  by_cases signed : ∃ rest, text = '+' :: rest
  · obtain ⟨rest, rfl⟩ := signed
    refine parseDigits_eq_some_iff.trans (and_congr_left' ⟨.signed, fun spelled => ?_⟩)
    cases spelled with
    | plain digits => exact absurd rfl digits.ne_plus
    | signed digits => exact digits
  · have unsigned : parseUnsigned bound text = if text.isEmpty || !text.all Char.isDigit then none
        else if digitsValue text < bound then some (digitsValue text) else none := by
      rw [parseUnsigned]
      exact fun rest shape => signed ⟨rest, shape⟩
    rw [unsigned, parseDigits_eq_some_iff]
    refine and_congr_left' ⟨.plain, fun spelled => ?_⟩
    cases spelled with
    | plain digits => exact digits
    | signed digits => exact absurd ⟨_, rfl⟩ signed

/-- The digits of a natural below the bound are read as it. -/
theorem parseUnsigned_repr (h : n < bound) : parseUnsigned bound n.repr.toList = some n :=
  parseUnsigned_eq_some_iff.2 ⟨.plain (denotes_repr n), h⟩

namespace Numeral

/-- An exponent as a document writes it, with its sign. -/
def exponentSpelled : Option Int → List Char
  | none => []
  | some e => 'e' :: (if e < 0 then '-' else '+') :: e.natAbs.repr.toList

/-- The point and the digits behind it, if there are any. -/
def fractionSpelled : List Char → List Char
  | [] => []
  | digits => '.' :: digits

/-- A numeral without its sign. -/
def unsignedSpelled (n : Numeral) : List Char :=
  n.whole ++ (fractionSpelled n.fraction ++ exponentSpelled n.exponent)

/-- The text of a numeral. -/
def spelled (n : Numeral) : List Char :=
  if n.negative then '-' :: n.unsignedSpelled else n.unsignedSpelled

/-- A numeral whose spelling is a numeral of a document: there are digits before the point, without a
    superfluous zero in front. -/
structure Regular (n : Numeral) : Prop where
  nonempty : n.whole ≠ []
  whole : ∀ c ∈ n.whole, c.isDigit
  fraction : ∀ c ∈ n.fraction, c.isDigit
  front : n.whole = ['0'] ∨ n.whole.head? ≠ some '0'

/-- The numeral of an integer. -/
def ofInt (n : Int) : Numeral := ⟨n < 0, n.natAbs.repr.toList, [], none⟩

theorem ofInt_regular (n : Int) : (ofInt n).Regular where
  nonempty := repr_toList_ne_nil _
  whole _ := isDigit_of_mem_repr
  fraction := by simp [ofInt]
  front := by
    rcases Nat.eq_zero_or_pos n.natAbs with zero | positive
    · simp [ofInt, zero, Nat.toDigits_zero]
    · exact .inr (head_repr_ne_zero positive)

/-- The numeral of an integer is spelled as the integer is printed. -/
theorem ofInt_spelled (n : Int) : (ofInt n).spelled = (toString n).toList := by
  cases n with
  | ofNat n =>
    simp [spelled, ofInt, unsignedSpelled, fractionSpelled, exponentSpelled, toString, Int.repr]
  | negSucc n =>
    simp [spelled, ofInt, unsignedSpelled, fractionSpelled, exponentSpelled, toString, Int.repr,
      Int.negSucc_lt_zero]

@[simp] theorem ofInt_wholeValue (n : Int) : (ofInt n).wholeValue = n := by
  simp only [wholeValue, ofInt, digitsValue_repr, decide_eq_true_eq]
  split <;> omega

end Numeral

end CycleCost.Decimal
