/-
Module: CycleCost.Document.Toml.Scalar
Purpose: The values of TOML 1.0 that have no parts: strings in their four notations, numbers, truth values and
  dates. A date is checked and then has no further use, because no document of the library holds one.
Main exports: basicText, literalText, multilineBasicText, multilineLiteralText, word, scalar
-/
import CycleCost.Document.Datum
import CycleCost.Document.Json.Token

namespace CycleCost.Document.Toml

open Json (hexDigit)

/-- A character that stands for itself in a string or a comment: the tab, and everything from the blank on
    but the delete character. -/
def isPlain (c : Char) : Bool := c = '\t' || (' ' ≤ c && c ≠ '\x7f')

def isBlank (c : Char) : Bool := c = ' ' || c = '\t'

/-- The number that hexadecimal digits denote. -/
def hexValue (digits : List Char) : Option Nat :=
  digits.foldlM (fun n c => (hexDigit c).map (n * 16 + ·)) 0

/-- The character of a code point; surrogates and numbers beyond the last one have none. -/
def codePoint (digits : List Char) : Option Char :=
  (hexValue digits).bind fun n => if n.isValidChar then some (Char.ofNat n) else none

def letterEscape : Char → Option Char
  | 'b' => some '\x08'
  | 't' => some '\t'
  | 'n' => some '\n'
  | 'f' => some '\x0c'
  | 'r' => some '\r'
  | '"' => some '"'
  | '\\' => some '\\'
  | _ => none

/-- The rest of a string in one line between quotation marks. `read` has the latest character first. -/
def basicText : List Char → List Char → Option (String × List Char)
  | [], _ => none
  | '"' :: rest, read => some (String.ofList read.reverse, rest)
  | '\\' :: 'u' :: a :: b :: c :: d :: rest, read =>
    (codePoint [a, b, c, d]).bind fun ch => basicText rest (ch :: read)
  | '\\' :: 'U' :: a :: b :: c :: d :: e :: f :: g :: h :: rest, read =>
    (codePoint [a, b, c, d, e, f, g, h]).bind fun ch => basicText rest (ch :: read)
  | '\\' :: e :: rest, read => (letterEscape e).bind fun ch => basicText rest (ch :: read)
  | c :: rest, read => if isPlain c then basicText rest (c :: read) else none

/-- The rest of a string in one line between apostrophes, where nothing is escaped. -/
def literalText : List Char → List Char → Option (String × List Char)
  | [], _ => none
  | '\'' :: rest, read => some (String.ofList read.reverse, rest)
  | c :: rest, read => if isPlain c then literalText rest (c :: read) else none

/-- Where a reader of a multi-line string stands. -/
inductive Gap where
  /-- In the text. -/
  | closed
  /-- Behind a backslash at the end of a line, before the line break. -/
  | beforeBreak
  /-- In the blanks and line breaks that such a backslash swallows. -/
  | afterBreak
  deriving DecidableEq

/-- The rest of a multi-line string between triple quotation marks. Up to two more marks may stand directly
    before the closing ones. -/
def multilineBasicText : Gap → List Char → List Char → Option (String × List Char)
  | _, [], _ => none
  | .beforeBreak, '\r' :: '\n' :: rest, read => multilineBasicText .afterBreak rest read
  | .beforeBreak, c :: rest, read =>
    if c = '\n' then multilineBasicText .afterBreak rest read
    else if isBlank c then multilineBasicText .beforeBreak rest read
    else none
  | .afterBreak, '\r' :: '\n' :: rest, read => multilineBasicText .afterBreak rest read
  | .afterBreak, ' ' :: rest, read => multilineBasicText .afterBreak rest read
  | .afterBreak, '\t' :: rest, read => multilineBasicText .afterBreak rest read
  | .afterBreak, '\n' :: rest, read => multilineBasicText .afterBreak rest read
  | _, '"' :: '"' :: '"' :: '"' :: '"' :: rest, read =>
    some (String.ofList ('"' :: '"' :: read).reverse, rest)
  | _, '"' :: '"' :: '"' :: '"' :: rest, read => some (String.ofList ('"' :: read).reverse, rest)
  | _, '"' :: '"' :: '"' :: rest, read => some (String.ofList read.reverse, rest)
  | _, '\r' :: '\n' :: rest, read => multilineBasicText .closed rest ('\n' :: read)
  | _, '\\' :: 'u' :: a :: b :: c :: d :: rest, read =>
    (codePoint [a, b, c, d]).bind fun ch => multilineBasicText .closed rest (ch :: read)
  | _, '\\' :: 'U' :: a :: b :: c :: d :: e :: f :: g :: h :: rest, read =>
    (codePoint [a, b, c, d, e, f, g, h]).bind fun ch => multilineBasicText .closed rest (ch :: read)
  | _, '\\' :: '\r' :: '\n' :: rest, read => multilineBasicText .afterBreak rest read
  | _, '\\' :: e :: rest, read =>
    if e = '\n' then multilineBasicText .afterBreak rest read
    else if isBlank e then multilineBasicText .beforeBreak rest read
    else (letterEscape e).bind fun ch => multilineBasicText .closed rest (ch :: read)
  | _, c :: rest, read =>
    if isPlain c || c = '\n' then multilineBasicText .closed rest (c :: read) else none

/-- The rest of a multi-line string between triple apostrophes, where nothing is escaped. -/
def multilineLiteralText : List Char → List Char → Option (String × List Char)
  | [], _ => none
  | '\'' :: '\'' :: '\'' :: '\'' :: '\'' :: rest, read =>
    some (String.ofList ('\'' :: '\'' :: read).reverse, rest)
  | '\'' :: '\'' :: '\'' :: '\'' :: rest, read => some (String.ofList ('\'' :: read).reverse, rest)
  | '\'' :: '\'' :: '\'' :: rest, read => some (String.ofList read.reverse, rest)
  | '\r' :: '\n' :: rest, read => multilineLiteralText rest ('\n' :: read)
  | c :: rest, read =>
    if isPlain c || c = '\n' then multilineLiteralText rest (c :: read) else none

/-- A line break directly behind the opening marks of a multi-line string is not part of it. -/
def withoutFirstBreak : List Char → List Char
  | '\r' :: '\n' :: rest => rest
  | '\n' :: rest => rest
  | s => s

/-- Digits without the underscores, each of which has to stand between two digits. -/
def plainDigits (isDigit : Char → Bool) : List Char → Option (List Char)
  | [] => none
  | c :: rest => if isDigit c then go [c] rest else none
where
  /-- The rest of the digits behind a digit. -/
  go (read : List Char) : List Char → Option (List Char)
    | [] => some read.reverse
    | '_' :: c :: rest => if isDigit c then go (c :: read) rest else none
    | c :: rest => if isDigit c then go (c :: read) rest else none

/-- Decimal digits without superfluous zeros in front. -/
def wholeDigits (s : List Char) : Option (List Char) :=
  match plainDigits Char.isDigit s with
  | some ('0' :: _ :: _) => none
  | digits => digits

def splitSign : List Char → Bool × List Char
  | '-' :: rest => (true, rest)
  | '+' :: rest => (false, rest)
  | s => (false, s)

def signed64 (n : Int) : Option Datum :=
  if Int64.minValue.toInt ≤ n ∧ n ≤ Int64.maxValue.toInt then some (.integer n) else none

def baseValue (base : Nat) (digits : List Char) : Option Nat :=
  digits.foldlM (fun n c => (hexDigit c).bind fun d => if d < base then some (n * base + d) else none) 0

/-- An integer in decimal, or without a sign in hexadecimal, octal or binary notation. -/
def integerWord (s : List Char) : Option Datum :=
  let based (base : Nat) (digits : List Char) : Option Datum := do
    let digits ← plainDigits (fun c => (hexDigit c).any (· < base)) digits
    signed64 (← baseValue base digits)
  match s with
  | '0' :: 'x' :: digits => based 16 digits
  | '0' :: 'o' :: digits => based 8 digits
  | '0' :: 'b' :: digits => based 2 digits
  | _ => do
    let (negative, body) := splitSign s
    let n : Int := Decimal.digitsValue (← wholeDigits body)
    signed64 (if negative then -n else n)

/-- A float: a fraction, an exponent or both behind a whole number. One that rounds to infinity is refused,
    but the sign of a refused one is not looked at, so a negative one becomes minus infinity. -/
def floatWord (s : List Char) : Option Datum := do
  let (negative, body) := splitSign s
  let isMark (c : Char) : Bool := c = '.' || c = 'e' || c = 'E'
  let isExponentMark (c : Char) : Bool := c = 'e' || c = 'E'
  let whole ← wholeDigits (body.takeWhile fun c => !isMark c)
  let afterWhole := body.dropWhile fun c => !isMark c
  let (fraction, afterFraction) ← match afterWhole with
    | '.' :: rest => do
      let digits ← plainDigits Char.isDigit (rest.takeWhile fun c => !isExponentMark c)
      pure (digits, rest.dropWhile fun c => !isExponentMark c)
    | rest => some ([], rest)
  let exponent ← match afterFraction with
    | [] => some none
    | _ :: rest => do
      let (negativeExponent, digits) := splitSign rest
      let n : Int := Decimal.digitsValue (← plainDigits Char.isDigit digits)
      pure (some (if negativeExponent then -n else n))
  if fraction.isEmpty && exponent.isNone then none
  else
    let x := Decimal.Numeral.toFloat ⟨negative, whole, fraction, exponent⟩
    if !x.isFinite && !negative then none else some (.real x)

/-- Infinity and the value that is no number, with or without a sign. -/
def specialWord (s : List Char) : Option Datum :=
  let (negative, body) := splitSign s
  if body = "inf".toList then some (.real (if negative then -1.0 / 0.0 else 1.0 / 0.0))
  else if body = "nan".toList then some (.real (0.0 / 0.0))
  else none

/-- Two digits whose value lies between two bounds. -/
def twoDigits (low high : Nat) : List Char → Option (Nat × List Char)
  | a :: b :: rest =>
    let n := Decimal.digitsValue [a, b]
    if a.isDigit && b.isDigit && low ≤ n && n ≤ high then some (n, rest) else none
  | _ => none

def expectChar (c : Char) : List Char → Option (List Char)
  | d :: rest => if d = c then some rest else none
  | [] => none

def monthDays (year month : Nat) : Nat :=
  if month = 2 then
    if (year % 4 = 0 && year % 100 ≠ 0) || year % 400 = 0 then 29 else 28
  else if month = 4 || month = 6 || month = 9 || month = 11 then 30
  else 31

/-- A year of four digits, and what follows. -/
def yearAhead : List Char → Option (Nat × List Char)
  | a :: b :: c :: d :: rest =>
    if [a, b, c, d].all Char.isDigit then some (Decimal.digitsValue [a, b, c, d], rest) else none
  | _ => none

def dateAhead (s : List Char) : Option (List Char) := do
  let (year, s) ← yearAhead s
  let (month, s) ← twoDigits 1 12 (← expectChar '-' s)
  let (_, s) ← twoDigits 1 (monthDays year month) (← expectChar '-' s)
  return s

/-- Hours and minutes, and what follows. -/
def clockAhead (s : List Char) : Option (List Char) := do
  let (_, s) ← twoDigits 0 23 s
  let (_, s) ← twoDigits 0 59 (← expectChar ':' s)
  return s

/-- Behind a point the fraction of a second, which has at least one digit. -/
def secondFraction : List Char → Option (List Char)
  | '.' :: c :: rest => if c.isDigit then some (rest.dropWhile Char.isDigit) else none
  | ['.'] => none
  | s => some s

/-- A time of day with optional fractions of a second, and what follows. -/
def timeAhead (s : List Char) : Option (List Char) := do
  let s ← clockAhead s
  let (_, s) ← twoDigits 0 60 (← expectChar ':' s)
  secondFraction s

/-- The distance from universal time, and what follows. -/
def offsetAhead : List Char → Option (List Char)
  | 'Z' :: rest => some rest
  | 'z' :: rest => some rest
  | '+' :: rest => clockAhead rest
  | '-' :: rest => clockAhead rest
  | _ => none

/-- A date, a time of day, or both with or without an offset. -/
def isDateTime (s : List Char) : Bool :=
  let ends (r : Option (List Char)) : Bool := r == some []
  let timed (rest : List Char) : Bool :=
    ends (timeAhead rest) || ends ((timeAhead rest).bind offsetAhead)
  match dateAhead s with
  | some [] => true
  | some (c :: rest) => (c = 'T' || c = 't' || c = ' ') && timed rest
  | none => ends (timeAhead s)

/-- A character of a number, a date or a word. Whatever follows a value is no such character. -/
def isWordChar (c : Char) : Bool :=
  c.isAlphanum || c = '_' || c = '+' || c = '-' || c = '.' || c = ':'

def word (s : List Char) : Option Datum :=
  if s = "true".toList then some (.bool true)
  else if s = "false".toList then some (.bool false)
  else (specialWord s).or ((integerWord s).or
    ((floatWord s).or (if isDateTime s then some .unusable else none)))

/-- A word, together with the time of day that may follow a date behind a single blank. -/
def wordAhead (s : List Char) : List Char × List Char :=
  let first := s.takeWhile isWordChar
  let rest := s.dropWhile isWordChar
  match rest with
  | ' ' :: behind =>
    let both := first ++ ' ' :: behind.takeWhile isWordChar
    if isDateTime both then (both, behind.dropWhile isWordChar) else (first, rest)
  | _ => (first, rest)

/-- A value without parts, and what follows. -/
def scalar : List Char → Option (Datum × List Char)
  | '"' :: '"' :: '"' :: rest =>
    (multilineBasicText .closed (withoutFirstBreak rest) []).map fun (s, behind) => (.text s, behind)
  | '"' :: rest => (basicText rest []).map fun (s, behind) => (.text s, behind)
  | '\'' :: '\'' :: '\'' :: rest =>
    (multilineLiteralText (withoutFirstBreak rest) []).map fun (s, behind) => (.text s, behind)
  | '\'' :: rest => (literalText rest []).map fun (s, behind) => (.text s, behind)
  | s =>
    let (first, behind) := wordAhead s
    (word first).map fun d => (d, behind)

end CycleCost.Document.Toml
