/-
Module: CycleCost.Proofs.Document.Scan
Purpose: The scanner reads back what the writer spells: each numeral and each quoted text is one token, and
  nothing of what follows is touched, as long as it cannot continue a numeral.
Main exports: Stops, scanUnsigned_spelled, scanText_escaped, tokens_fixed, tokens_spelled, tokens_quoted
-/
import CycleCost.Document.Json.Token
import CycleCost.Document.Json.Writer
import CycleCost.Proofs.Decimal.Numeral

namespace CycleCost.Document.Json

open Decimal (Numeral)
open Decimal.Numeral (fractionSpelled exponentSpelled)

/-! ### Numerals -/

/-- What follows a numeral without continuing it. -/
def Stops : List Char → Prop
  | [] => True
  | c :: _ => c.isDigit = false ∧ c ≠ '.' ∧ c ≠ 'e' ∧ c ≠ 'E'

@[simp] theorem stops_nil : Stops [] := trivial

@[simp] theorem stops_cons (c : Char) (rest : List Char) :
    Stops (c :: rest) ↔ c.isDigit = false ∧ c ≠ '.' ∧ c ≠ 'e' ∧ c ≠ 'E' := Iff.rfl

/-- What follows a run of digits without continuing it. -/
def EndsDigits : List Char → Prop
  | [] => True
  | c :: _ => c.isDigit = false

theorem Stops.endsDigits {rest : List Char} (stops : Stops rest) : EndsDigits rest := by
  cases rest with
  | nil => trivial
  | cons c rest => exact stops.1

section

variable {digits rest : List Char}

theorem takeWhile_isDigit_append (all : ∀ c ∈ digits, c.isDigit) (ends : EndsDigits rest) :
    (digits ++ rest).takeWhile Char.isDigit = digits := by
  rw [List.takeWhile_append_of_pos all]
  cases rest with
  | nil => simp
  | cons c rest => simp [show c.isDigit = false from ends]

theorem dropWhile_isDigit_append (all : ∀ c ∈ digits, c.isDigit) (ends : EndsDigits rest) :
    (digits ++ rest).dropWhile Char.isDigit = rest := by
  rw [List.dropWhile_append_of_pos all]
  cases rest with
  | nil => simp
  | cons c rest => simp [show c.isDigit = false from ends]

end

theorem scanWhole_spelled {n : Numeral} (regular : n.Regular) {rest : List Char}
    (ends : EndsDigits rest) : scanWhole (n.whole ++ rest) = some (n.whole, rest) := by
  have taken := takeWhile_isDigit_append regular.whole ends
  have dropped := dropWhile_isDigit_append regular.whole ends
  rw [scanWhole, taken, dropped]
  split
  · next empty => exact absurd empty regular.nonempty
  · next padded =>
    rcases regular.front with zero | front
    · simp [zero] at padded
    · simp [padded] at front
  · rfl

theorem scanFraction_spelled {fraction rest : List Char} (all : ∀ c ∈ fraction, c.isDigit)
    (ends : EndsDigits rest) (point : rest.head? ≠ some '.') :
    scanFraction (fractionSpelled fraction ++ rest) = some (fraction, rest) := by
  cases fraction with
  | nil =>
    rw [fractionSpelled, List.nil_append, scanFraction]
    rintro behind rfl
    exact point rfl
  | cons c cs =>
    have taken : (c :: (cs ++ rest)).takeWhile Char.isDigit = c :: cs :=
      takeWhile_isDigit_append all ends
    have dropped : (c :: (cs ++ rest)).dropWhile Char.isDigit = rest :=
      dropWhile_isDigit_append all ends
    simp [fractionSpelled, scanFraction, taken, dropped]

/-- An exponent is scanned with its sign. -/
theorem scanExponent_signed (negative : Bool) {digits rest : List Char} (nonempty : digits ≠ [])
    (all : ∀ c ∈ digits, c.isDigit) (ends : EndsDigits rest) :
    scanExponent ('e' :: (if negative then '-' else '+') :: (digits ++ rest)) =
      some (some (if negative then -(Decimal.digitsValue digits : Int) else Decimal.digitsValue digits),
        rest) := by
  obtain ⟨d, ds, rfl⟩ := List.exists_cons_of_ne_nil nonempty
  have taken : (d :: (ds ++ rest)).takeWhile Char.isDigit = d :: ds :=
    takeWhile_isDigit_append all ends
  have dropped : (d :: (ds ++ rest)).dropWhile Char.isDigit = rest :=
    dropWhile_isDigit_append all ends
  cases negative <;> simp [scanExponent, taken, dropped]

theorem scanExponent_spelled (exponent : Option Int) {rest : List Char} (stops : Stops rest) :
    scanExponent (exponentSpelled exponent ++ rest) = some (exponent, rest) := by
  cases exponent with
  | none =>
    cases rest with
    | nil => rfl
    | cons c rest => simp [exponentSpelled, scanExponent, stops.2.2.1, stops.2.2.2]
  | some e =>
    have scanned := scanExponent_signed (e < 0) (Decimal.repr_toList_ne_nil e.natAbs)
      (fun _ => Decimal.isDigit_of_mem_repr) stops.endsDigits
    have value : (if e < 0 then -(e.natAbs : Int) else e.natAbs) = e := by split <;> omega
    simp only [decide_eq_true_eq, Decimal.digitsValue_repr, value] at scanned
    exact scanned

theorem endsDigits_exponent (exponent : Option Int) {rest : List Char} (stops : Stops rest) :
    EndsDigits (exponentSpelled exponent ++ rest) := by
  cases exponent with
  | none => exact stops.endsDigits
  | some e => rfl

theorem head_exponent_ne_point (exponent : Option Int) {rest : List Char} (stops : Stops rest) :
    (exponentSpelled exponent ++ rest).head? ≠ some '.' := by
  cases exponent with
  | none =>
    cases rest with
    | nil => simp [exponentSpelled]
    | cons c rest => simpa [exponentSpelled] using stops.2.1
  | some e => simp [exponentSpelled]

theorem endsDigits_fraction (fraction : List Char) {rest : List Char} (ends : EndsDigits rest) :
    EndsDigits (fractionSpelled fraction ++ rest) := by
  cases fraction with
  | nil => exact ends
  | cons c cs => rfl

/-- A regular numeral is scanned part by part. -/
theorem scanUnsigned_spelled {n : Numeral} (regular : n.Regular) {rest : List Char}
    (stops : Stops rest) : scanUnsigned n.negative (n.unsignedSpelled ++ rest) = some (n, rest) := by
  have ends := endsDigits_exponent n.exponent stops
  have whole := scanWhole_spelled regular (endsDigits_fraction n.fraction ends)
  have fraction :=
    scanFraction_spelled regular.fraction ends (head_exponent_ne_point n.exponent stops)
  have exponent := scanExponent_spelled n.exponent stops
  simp only [scanUnsigned, Numeral.unsignedSpelled, List.append_assoc, whole, fraction, exponent,
    Option.bind_eq_bind, Option.bind_some, Option.pure_def]

/-! ### Texts -/

theorem hexDigit_digitChar {n : Nat} (small : n < 16) : hexDigit n.digitChar = some n := by
  revert n
  decide

/-- A control character is the number of its escape. -/
theorem hexNumber_control {c : Char} (control : c < ' ') :
    hexNumber '0' '0' (Nat.digitChar (c.toNat / 16)) (Nat.digitChar (c.toNat % 16)) = some c.toNat := by
  have small : c.toNat < 32 := control
  have upper := hexDigit_digitChar (n := c.toNat / 16) (by omega)
  have lower := hexDigit_digitChar (n := c.toNat % 16) (by omega)
  have zero : hexDigit '0' = some 0 := rfl
  have parts : c.toNat / 16 * 16 + c.toNat % 16 = c.toNat := by omega
  simp [hexNumber, zero, upper, lower, parts]

/-- An escaped character is scanned as the character. -/
theorem scanText_escaped (c : Char) (rest read : List Char) :
    scanText (escaped c ++ rest) none (some read) = scanText rest none (some (c :: read)) := by
  unfold escaped
  split
  case isTrue quote => subst quote; simp [scanText, letterEscape, settle]
  split
  case isTrue backslash => subst backslash; simp [scanText, letterEscape, settle]
  split
  case isTrue backspace => subst backspace; simp [scanText, letterEscape, settle]
  split
  case isTrue tab => subst tab; simp [scanText, letterEscape, settle]
  split
  case isTrue newline => subst newline; simp [scanText, letterEscape, settle]
  split
  case isTrue feed => subst feed; simp [scanText, letterEscape, settle]
  split
  case isTrue carriage => subst carriage; simp [scanText, letterEscape, settle]
  split
  case isTrue control =>
    have small : c.toNat < 32 := control
    have notTrail : isTrail c.toNat = false := by simp [isTrail]; omega
    have notLead : isLead c.toNat = false := by simp [isLead]; omega
    simp [scanText, hexNumber_control control, notTrail, notLead, settle]
  case isFalse quote backslash _ _ _ _ _ control =>
    rw [List.cons_append, List.nil_append, scanText]
    · simp [control, settle]
    · exact quote
    · exact fun _ _ _ _ _ h _ => backslash h
    · exact fun _ _ h _ => backslash h

/-- An escaped text is scanned up to its closing quote. -/
theorem scanText_flatMap_escaped (cs rest read : List Char) :
    scanText (cs.flatMap escaped ++ '"' :: rest) none (some read) =
      some (some (String.ofList (read.reverse ++ cs)), rest) := by
  induction cs generalizing read with
  | nil => simp [scanText, settle]
  | cons c cs ih =>
    rw [List.flatMap_cons, List.append_assoc, scanText_escaped, ih]
    simp

/-! ### Tokens -/

section

variable (rest : List Char)

@[simp] theorem tokens_nil : tokens [] = some [] := by rw [tokens]

/-- The token that is always spelled like this, if there is one. -/
def fixedToken : List Char → Option Token
  | ['['] => some .listBegin
  | [']'] => some .listEnd
  | ['\x7b'] => some .tableBegin
  | ['\x7d'] => some .tableEnd
  | [':'] => some .colon
  | [','] => some .comma
  | ['n', 'u', 'l', 'l'] => some .null
  | ['t', 'r', 'u', 'e'] => some (.bool true)
  | ['f', 'a', 'l', 's', 'e'] => some (.bool false)
  | _ => none

theorem tokens_fixed (spelling : List Char) {token : Token} (fixed : fixedToken spelling = some token) :
    tokens (spelling ++ rest) = (tokens rest).map (token :: ·) := by
  unfold fixedToken at fixed
  split at fixed <;> cases fixed <;> simp only [List.cons_append, List.nil_append] <;> rw [tokens]

@[simp] theorem tokens_listBegin : tokens ('[' :: rest) = (tokens rest).map (.listBegin :: ·) :=
  tokens_fixed rest ['['] rfl

@[simp] theorem tokens_listEnd : tokens (']' :: rest) = (tokens rest).map (.listEnd :: ·) :=
  tokens_fixed rest [']'] rfl

@[simp] theorem tokens_tableBegin : tokens ('\x7b' :: rest) = (tokens rest).map (.tableBegin :: ·) :=
  tokens_fixed rest ['\x7b'] rfl

@[simp] theorem tokens_tableEnd : tokens ('\x7d' :: rest) = (tokens rest).map (.tableEnd :: ·) :=
  tokens_fixed rest ['\x7d'] rfl

@[simp] theorem tokens_colon : tokens (':' :: rest) = (tokens rest).map (.colon :: ·) :=
  tokens_fixed rest [':'] rfl

@[simp] theorem tokens_comma : tokens (',' :: rest) = (tokens rest).map (.comma :: ·) :=
  tokens_fixed rest [','] rfl

@[simp] theorem tokens_null :
    tokens ('n' :: 'u' :: 'l' :: 'l' :: rest) = (tokens rest).map (.null :: ·) :=
  tokens_fixed rest ['n', 'u', 'l', 'l'] rfl

@[simp] theorem tokens_true :
    tokens ('t' :: 'r' :: 'u' :: 'e' :: rest) = (tokens rest).map (.bool true :: ·) :=
  tokens_fixed rest ['t', 'r', 'u', 'e'] rfl

@[simp] theorem tokens_false :
    tokens ('f' :: 'a' :: 'l' :: 's' :: 'e' :: rest) = (tokens rest).map (.bool false :: ·) :=
  tokens_fixed rest ['f', 'a', 'l', 's', 'e'] rfl

theorem tokens_blank {c : Char} (blank : isBlank c) : tokens (c :: rest) = tokens rest := by
  have four : ((c = ' ' ∨ c = '\t') ∨ c = '\n') ∨ c = '\r' := by simpa [isBlank] using blank
  rcases four with ((rfl | rfl) | rfl) | rfl <;> rw [tokens, if_pos blank] <;> simp

@[simp] theorem tokens_space : tokens (' ' :: rest) = tokens rest := tokens_blank rest rfl

@[simp] theorem tokens_newline : tokens ('\n' :: rest) = tokens rest := tokens_blank rest rfl

/-- Indentation separates tokens and is none. -/
@[simp] theorem tokens_margin (n : Nat) : tokens (List.replicate n ' ' ++ rest) = tokens rest := by
  induction n with
  | zero => rfl
  | succ n ih => rw [List.replicate_succ, List.cons_append, tokens_space, ih]

/-- A quoted text is one token. -/
theorem tokens_quoted (s : String) :
    tokens ((quoted s).toList ++ rest) = (tokens rest).map (.text (some s) :: ·) := by
  have content := scanText_flatMap_escaped s.toList rest []
  simp only [quoted, String.toList_ofList, List.cons_append, List.append_assoc, List.nil_append]
  rw [tokens]
  split
  · next missing => rw [content] at missing; cases missing
  · next found =>
    rw [content] at found
    simp only [List.reverse_nil, List.nil_append, String.ofList_toList, Option.some.injEq,
      Prod.mk.injEq] at found
    obtain ⟨rfl, rfl⟩ := found
    rfl

end

/-- A number without a sign begins with a digit, which begins no other token. -/
theorem tokens_digit {c : Char} (digit : c.isDigit) {rest behind : List Char} {n : Numeral}
    (scanned : scanUnsigned false (c :: rest) = some (n, behind)) :
    tokens (c :: rest) = (tokens behind).map (.number n :: ·) := by
  have other (d : Char) (h : d.isDigit = false) : c ≠ d := by
    rintro rfl
    rw [h] at digit
    cases digit
  have visible : isBlank c = false := by
    simp [isBlank, other ' ' rfl, other '\t' rfl, other '\n' rfl, other '\r' rfl]
  rw [tokens, if_neg (by simp [visible])]
  · split
    · next missing => rw [scanned] at missing; cases missing
    · next found =>
      rw [scanned] at found
      simp only [Option.some.injEq, Prod.mk.injEq] at found
      obtain ⟨rfl, rfl⟩ := found
      rfl
  · exact other '[' rfl
  · exact other ']' rfl
  · exact other '\x7b' rfl
  · exact other '\x7d' rfl
  · exact other ':' rfl
  · exact other ',' rfl
  · exact fun _ letter _ => other 'n' rfl letter
  · exact fun _ letter _ => other 't' rfl letter
  · exact fun _ letter _ => other 'f' rfl letter
  · exact other '"' rfl
  · exact other '-' rfl

/-- A spelled numeral is one token. -/
theorem tokens_spelled {n : Numeral} (regular : n.Regular) {rest : List Char} (stops : Stops rest) :
    tokens (n.spelled ++ rest) = (tokens rest).map (.number n :: ·) := by
  have scanned := scanUnsigned_spelled regular stops
  unfold Numeral.spelled
  split
  case isTrue negative =>
    rw [negative] at scanned
    rw [List.cons_append, tokens]
    split
    · next missing => rw [scanned] at missing; cases missing
    · next found =>
      rw [scanned] at found
      simp only [Option.some.injEq, Prod.mk.injEq] at found
      obtain ⟨rfl, rfl⟩ := found
      rfl
  case isFalse positive =>
    rw [Bool.eq_false_iff.2 positive] at scanned
    obtain ⟨c, tail, shape⟩ := List.exists_cons_of_ne_nil regular.nonempty
    have digit : c.isDigit := regular.whole c (by rw [shape]; exact List.mem_cons_self)
    rw [Numeral.unsignedSpelled, shape] at scanned ⊢
    exact tokens_digit digit scanned

end CycleCost.Document.Json
