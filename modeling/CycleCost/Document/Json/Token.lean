/-
Module: CycleCost.Document.Json.Token
Purpose: The tokens of a JSON text. A text token whose escapes name half a surrogate pair has no content; it
  may stand where nothing looks at it.
Main exports: Token, scanText, scanUnsigned, tokens
-/
import CycleCost.Decimal.Numeral

namespace CycleCost.Document.Json

open Decimal (Numeral)

inductive Token where
  | listBegin
  | listEnd
  | tableBegin
  | tableEnd
  | colon
  | comma
  | null
  | bool (value : Bool)
  | number (value : Numeral)
  | text (content : Option String)
  deriving DecidableEq, Repr

/-- The value of a hexadecimal digit. -/
def hexDigit (c : Char) : Option Nat :=
  if '0' ≤ c && c ≤ '9' then some (c.toNat - '0'.toNat)
  else if 'a' ≤ c && c ≤ 'f' then some (c.toNat - 'a'.toNat + 10)
  else if 'A' ≤ c && c ≤ 'F' then some (c.toNat - 'A'.toNat + 10)
  else none

/-- The number of four hexadecimal digits. -/
def hexNumber (a b c d : Char) : Option Nat := do
  return (((← hexDigit a) * 16 + (← hexDigit b)) * 16 + (← hexDigit c)) * 16 + (← hexDigit d)

/-- The first half of a surrogate pair. -/
def isLead (unit : Nat) : Bool := 0xD800 ≤ unit && unit < 0xDC00

/-- The second half of a surrogate pair. -/
def isTrail (unit : Nat) : Bool := 0xDC00 ≤ unit && unit < 0xE000

def pairChar (lead trail : Nat) : Char :=
  Char.ofNat (0x10000 + (lead - 0xD800) * 0x400 + (trail - 0xDC00))

def letterEscape : Char → Option Char
  | '"' => some '"'
  | '\\' => some '\\'
  | '/' => some '/'
  | 'b' => some '\x08'
  | 'f' => some '\x0c'
  | 'n' => some '\n'
  | 'r' => some '\r'
  | 't' => some '\t'
  | _ => none

/-- What has been read of a text, the latest character first: nothing is left of it when a first half of a
    surrogate pair is not followed by a second one. -/
def settle : Option Nat → Option (List Char) → Option (List Char)
  | none, read => read
  | some _, _ => none

/-- The content of a text up to its closing quote, and what follows. `lead` is the first half of a surrogate
    pair that was just read, and `read` what came before, the latest character first; it is none once half a
    pair has been left alone. -/
def scanText : List Char → Option Nat → Option (List Char) → Option (Option String × List Char)
  | [], _, _ => none
  | '"' :: rest, lead, read =>
    some ((settle lead read).map fun cs => String.ofList cs.reverse, rest)
  | '\\' :: 'u' :: a :: b :: c :: d :: rest, lead, read =>
    match hexNumber a b c d with
    | none => none
    | some unit =>
      if isTrail unit then
        match lead with
        | some first => scanText rest none (read.map (pairChar first unit :: ·))
        | none => scanText rest none none
      else if isLead unit then scanText rest (some unit) (settle lead read)
      else scanText rest none ((settle lead read).map (Char.ofNat unit :: ·))
  | '\\' :: e :: rest, lead, read =>
    match letterEscape e with
    | none => none
    | some c => scanText rest none ((settle lead read).map (c :: ·))
  | c :: rest, lead, read =>
    if c < ' ' then none else scanText rest none ((settle lead read).map (c :: ·))

/-- A text takes at least its closing quote. -/
theorem length_lt_of_scanText {s : List Char} {lead : Option Nat} {read : Option (List Char)}
    {content : Option String} {rest : List Char} (h : scanText s lead read = some (content, rest)) :
    rest.length < s.length := by
  fun_induction scanText s lead read <;> simp only [List.length_cons, List.length_nil] <;> grind

/-- A whole number without superfluous zeros in front, and what follows. -/
def scanWhole (s : List Char) : Option (List Char × List Char) :=
  match s.takeWhile Char.isDigit with
  | [] => none
  | '0' :: _ :: _ => none
  | digits => some (digits, s.dropWhile Char.isDigit)

/-- The digits after a point, if there is one. -/
def scanFraction : List Char → Option (List Char × List Char)
  | '.' :: rest =>
    match rest.takeWhile Char.isDigit with
    | [] => none
    | digits => some (digits, rest.dropWhile Char.isDigit)
  | s => some ([], s)

/-- The exponent, if there is one. -/
def scanExponent : List Char → Option (Option Int × List Char)
  | c :: rest =>
    if c = 'e' || c = 'E' then
      let (negative, body) := match rest with
        | '-' :: r => (true, r)
        | '+' :: r => (false, r)
        | r => (false, r)
      match body.takeWhile Char.isDigit with
      | [] => none
      | digits =>
        let n : Int := Decimal.digitsValue digits
        some (some (if negative then -n else n), body.dropWhile Char.isDigit)
    else some (none, c :: rest)
  | [] => some (none, [])

/-- A number without its sign, and what follows. -/
def scanUnsigned (negative : Bool) (s : List Char) : Option (Numeral × List Char) := do
  let (whole, s) ← scanWhole s
  let (fraction, s) ← scanFraction s
  let (exponent, s) ← scanExponent s
  return (⟨negative, whole, fraction, exponent⟩, s)

/-- Digits are taken off the front. -/
theorem length_dropWhile_le (p : Char → Bool) (s : List Char) : (s.dropWhile p).length ≤ s.length :=
  (List.dropWhile_sublist p).length_le

/-- At least one digit before the point is taken off the front. -/
theorem length_lt_of_scanWhole {s digits rest : List Char} (h : scanWhole s = some (digits, rest)) :
    rest.length < s.length := by
  have parts := congrArg List.length (List.takeWhile_append_dropWhile (p := Char.isDigit) (l := s))
  rw [List.length_append] at parts
  unfold scanWhole at h
  split at h
  · simp at h
  · simp at h
  · next nonempty _ =>
    have positive : 0 < (s.takeWhile Char.isDigit).length := List.length_pos_iff.2 nonempty
    simp only [Option.some.injEq, Prod.mk.injEq] at h
    rw [← h.2]
    omega

/-- The point and the digits behind it are taken off the front. -/
theorem length_le_of_scanFraction {s digits rest : List Char}
    (h : scanFraction s = some (digits, rest)) : rest.length ≤ s.length := by
  unfold scanFraction at h
  split at h
  · next behind =>
    have := length_dropWhile_le Char.isDigit behind
    split at h <;> simp_all only [List.length_cons, Option.some.injEq, Prod.mk.injEq] <;> grind
  · simp_all

/-- The exponent is taken off the front. -/
theorem length_le_of_scanExponent {s rest : List Char} {exponent : Option Int}
    (h : scanExponent s = some (exponent, rest)) : rest.length ≤ s.length := by
  unfold scanExponent at h
  split at h
  · next c behind =>
    split at h
    · have bound (body : List Char) := length_dropWhile_le Char.isDigit body
      simp only [List.length_cons]
      grind
    · simp_all
  · simp_all

/-- A number takes at least one digit. -/
theorem length_lt_of_scanUnsigned {negative : Bool} {s : List Char} {n : Numeral} {rest : List Char}
    (h : scanUnsigned negative s = some (n, rest)) : rest.length < s.length := by
  simp only [scanUnsigned, Option.bind_eq_bind, Option.bind_eq_some_iff, Option.pure_def,
    Option.some.injEq, Prod.mk.injEq, Prod.exists] at h
  obtain ⟨_, _, whole, _, _, fraction, _, _, exponent, _, rfl⟩ := h
  have := length_lt_of_scanWhole whole
  have := length_le_of_scanFraction fraction
  have := length_le_of_scanExponent exponent
  omega

/-- The characters that stand between tokens. -/
def isBlank (c : Char) : Bool := c = ' ' || c = '\t' || c = '\n' || c = '\r'

/-- The tokens of a text. -/
def tokens : List Char → Option (List Token)
  | [] => some []
  | '[' :: rest => (tokens rest).map (.listBegin :: ·)
  | ']' :: rest => (tokens rest).map (.listEnd :: ·)
  | '{' :: rest => (tokens rest).map (.tableBegin :: ·)
  | '}' :: rest => (tokens rest).map (.tableEnd :: ·)
  | ':' :: rest => (tokens rest).map (.colon :: ·)
  | ',' :: rest => (tokens rest).map (.comma :: ·)
  | 'n' :: 'u' :: 'l' :: 'l' :: rest => (tokens rest).map (.null :: ·)
  | 't' :: 'r' :: 'u' :: 'e' :: rest => (tokens rest).map (.bool true :: ·)
  | 'f' :: 'a' :: 'l' :: 's' :: 'e' :: rest => (tokens rest).map (.bool false :: ·)
  | '"' :: rest =>
    match h : scanText rest none (some []) with
    | none => none
    | some (content, behind) =>
      have := length_lt_of_scanText h
      (tokens behind).map (.text content :: ·)
  | '-' :: rest =>
    match h : scanUnsigned true rest with
    | none => none
    | some (n, behind) =>
      have := length_lt_of_scanUnsigned h
      (tokens behind).map (.number n :: ·)
  | c :: rest =>
    if isBlank c then tokens rest
    else
      match h : scanUnsigned false (c :: rest) with
      | none => none
      | some (n, behind) =>
        have := length_lt_of_scanUnsigned h
        (tokens behind).map (.number n :: ·)
termination_by s => s.length
decreasing_by all_goals simp_all <;> omega

end CycleCost.Document.Json

