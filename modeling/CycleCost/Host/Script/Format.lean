/-
Module: CycleCost.Host.Script.Format
Purpose: The bytes that the printing commands of a script put out.
Main exports: Script.echoBytes, Script.formatBytes, Script.badNumbers, Script.utf8, Script.wholeInteger
-/

namespace CycleCost.Host.Script

/-- The bytes of a text. -/
def utf8 (s : String) : List UInt8 := s.toUTF8.data.toList

/-- The text of bytes; bytes that are no text become one character each. -/
def textOfBytes (bytes : List UInt8) : String :=
  match String.fromUTF8? ⟨bytes.toArray⟩ with
  | some s => s
  | none => String.ofList (bytes.map fun b => Char.ofNat b.toNat)

def octal (digits : List Char) : Nat := digits.foldl (fun n c => n * 8 + (c.toNat - '0'.toNat)) 0

def isOctal (c : Char) : Bool := '0' ≤ c && c ≤ '7'

def escapeByte (c : Char) : Option UInt8 :=
  match c with
  | 'a' => some 7
  | 'b' => some 8
  | 'f' => some 12
  | 'n' => some 10
  | 'r' => some 13
  | 't' => some 9
  | 'v' => some 11
  | '\\' => some 92
  | _ => none

/-- The byte of a numeric escape and the digits that it takes: up to three octal ones, behind a zero if
    `behindZero` asks for it. -/
def octalEscape (behindZero : Bool) (s : List Char) : Option (UInt8 × Nat) :=
  let (offset, body) := match behindZero, s with
    | true, '0' :: rest => (1, rest)
    | true, _ => (0, [])
    | false, s => (0, s)
  let digits := (body.take 3).takeWhile isOctal
  if digits.isEmpty && offset = 0 then none
  else some (UInt8.ofNat (octal digits), offset + digits.length)

/-- The bytes of a text with its escapes resolved, and whether output may go on behind it; `skip`
    characters have been used. -/
def escaped (behindZero : Bool) : (skip : Nat) → List Char → List UInt8 × Bool
  | _, [] => ([], true)
  | skip + 1, _ :: rest => escaped behindZero skip rest
  | 0, '\\' :: c :: rest =>
    if c = 'c' then ([], false)
    else match escapeByte c with
      | some b =>
        let (bytes, more) := escaped behindZero 1 (c :: rest)
        (b :: bytes, more)
      | none =>
        match octalEscape behindZero (c :: rest) with
        | some (b, used) =>
          let (bytes, more) := escaped behindZero used (c :: rest)
          (b :: bytes, more)
        | none =>
          let (bytes, more) := escaped behindZero 0 (c :: rest)
          (92 :: bytes, more)
  | 0, c :: rest =>
    let (bytes, more) := escaped behindZero 0 rest
    (utf8 c.toString ++ bytes, more)

/-- What `echo` puts out: its arguments with blanks between, escapes resolved, and a line break unless the
    first argument is `-n`. -/
def echoBytes (arguments : List String) : List UInt8 :=
  let (hasBreak, words) := match arguments with
    | "-n" :: rest => (false, rest)
    | words => (true, words)
  let (bytes, more) := escaped true 0 (" ".intercalate words).toList
  if more && hasBreak then bytes ++ [10] else bytes

def leadingInteger (s : String) : Int :=
  let (negative, body) := match s.toList with
    | '-' :: rest => (true, rest)
    | '+' :: rest => (false, rest)
    | rest => (false, rest)
  let n : Int := (body.takeWhile Char.isDigit).foldl (fun n c => n * 10 + (c.toNat - '0'.toNat)) 0
  if negative then -n else n

def wholeInteger (s : String) : Option Int :=
  let digits := match s.toList with
    | '-' :: rest => rest
    | '+' :: rest => rest
    | rest => rest
  if digits.isEmpty || !digits.all Char.isDigit then none else some (leadingInteger s)

/-- A conversion of a format. -/
structure Conversion where
  leftAligned : Bool
  zeroFilled : Bool
  width : Nat
  precision : Option Nat
  letter : Char

/-- The conversion behind a percent sign, and what follows. -/
def conversionAhead (s : List Char) : Option (Conversion × List Char) :=
  let flags := s.takeWhile fun c => c = '-' || c = '0' || c = '+' || c = ' ' || c = '#'
  let s := s.drop flags.length
  let number (digits : List Char) : Nat := (leadingInteger (String.ofList digits)).toNat
  let width := s.takeWhile Char.isDigit
  let s := s.drop width.length
  let (precision, s) := match s with
    | '.' :: rest =>
      (some (number (rest.takeWhile Char.isDigit)), rest.dropWhile Char.isDigit)
    | s => (none, s)
  match s with
  | letter :: rest => some (⟨'-' ∈ flags, '0' ∈ flags, number width, precision, letter⟩, rest)
  | [] => none

/-- A text filled up to the width of a conversion. -/
def Conversion.fill (c : Conversion) (body : List UInt8) : List UInt8 :=
  let gap := c.width - body.length
  if c.leftAligned then body ++ List.replicate gap 32
  else if c.zeroFilled && c.letter ≠ 's' then
    match body with
    | 45 :: digits => 45 :: List.replicate gap 48 ++ digits
    | digits => List.replicate gap 48 ++ digits
  else List.replicate gap 32 ++ body

def Conversion.bytes (c : Conversion) (argument : String) : List UInt8 :=
  let cut (bytes : List UInt8) : List UInt8 := match c.precision with
    | some n => bytes.take n
    | none => bytes
  let number (base : Nat) : List UInt8 :=
    utf8 (String.ofList (Nat.toDigits base (leadingInteger argument).toNat))
  match c.letter with
  | 's' => c.fill (cut (utf8 argument))
  | 'b' => c.fill (cut (escaped true 0 argument.toList).1)
  | 'c' => c.fill ((utf8 argument).take 1)
  | 'x' => c.fill (number 16)
  | 'X' => c.fill ((number 16).map fun b => if 97 ≤ b then b - 32 else b)
  | 'o' => c.fill (number 8)
  | 'd' | 'i' | 'u' => c.fill (utf8 (toString (leadingInteger argument)))
  | _ => []

/-- One pass over a format: the bytes and the arguments that are left. -/
def formatOnce : (fuel : Nat) → List Char → List String → List UInt8 × List String
  | 0, _, arguments => ([], arguments)
  | _, [], arguments => ([], arguments)
  | fuel + 1, '%' :: '%' :: rest, arguments =>
    let (bytes, left) := formatOnce fuel rest arguments
    (37 :: bytes, left)
  | fuel + 1, '%' :: rest, arguments =>
    match conversionAhead rest with
    | none => ([37], arguments)
    | some (c, rest) =>
      let (bytes, left) := formatOnce fuel rest (arguments.drop 1)
      (c.bytes (arguments.headD "") ++ bytes, left)
  | fuel + 1, '\\' :: c :: rest, arguments =>
    match escapeByte c with
    | some b =>
      let (bytes, left) := formatOnce fuel rest arguments
      (b :: bytes, left)
    | none =>
      match octalEscape false (c :: rest) with
      | some (b, used) =>
        let (bytes, left) := formatOnce fuel ((c :: rest).drop used) arguments
        (b :: bytes, left)
      | none =>
        let (bytes, left) := formatOnce fuel (c :: rest) arguments
        (92 :: bytes, left)
  | fuel + 1, c :: rest, arguments =>
    let (bytes, left) := formatOnce fuel rest arguments
    (utf8 c.toString ++ bytes, left)

/-- Passes over a format until no argument is left or a pass takes none. -/
def formatAll : (fuel : Nat) → List Char → List String → List UInt8
  | 0, _, _ => []
  | fuel + 1, format, arguments =>
    let (bytes, left) := formatOnce (format.length + 1) format arguments
    if left.isEmpty || left.length = arguments.length then bytes
    else bytes ++ formatAll fuel format left

def conversionLetters : (fuel : Nat) → List Char → List Char
  | 0, _ => []
  | _, [] => []
  | fuel + 1, '%' :: '%' :: rest => conversionLetters fuel rest
  | fuel + 1, '%' :: rest =>
    match conversionAhead rest with
    | some (c, rest) => c.letter :: conversionLetters fuel rest
    | none => []
  | fuel + 1, _ :: rest => conversionLetters fuel rest

def takesNumber (letter : Char) : Bool := "diuxXo".toList.contains letter

/-- The arguments that a format takes for numbers and that are none. -/
def badNumbers (format : String) (arguments : List String) : List String :=
  let letters := conversionLetters (format.length + 1) format.toList
  (arguments.zipIdx.filter fun (a, n) =>
    (letters[n % letters.length]?).any takesNumber && (wholeInteger a).isNone).map (·.1)

/-- What `printf` puts out: the format as often as its arguments need. -/
def formatBytes (format : String) (arguments : List String) : List UInt8 :=
  formatAll (arguments.length + 1) format.toList arguments

end CycleCost.Host.Script
