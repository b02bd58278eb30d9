/-
Module: CycleCost.Text
Purpose: Searching and cutting texts as lists of characters: substrings, lines, fields, blanks.
Main exports: Text.isBlank, Text.contains, Text.replace, Text.split, Text.fields, Text.lines, Text.trim, Text.firstWord,
  Text.padRight, Text.padLeft
-/

namespace CycleCost.Text

/-- White space in the sense of Unicode. -/
def isBlank (c : Char) : Bool :=
  let n := c.toNat
  (9 ≤ n && n ≤ 13) || n = 0x20 || n = 0x85 || n = 0xA0 || n = 0x1680 || (0x2000 ≤ n && n ≤ 0x200A)
    || n = 0x2028 || n = 0x2029 || n = 0x202F || n = 0x205F || n = 0x3000

def contains (needle : List Char) : List Char → Bool
  | [] => needle.isEmpty
  | c :: rest => needle.isPrefixOf (c :: rest) || contains needle rest

/-- The text with every occurrence of `needle`, which is not empty, replaced, from the left and without
    overlaps; `skip` characters still belong to the occurrence before. -/
def replaceFrom (needle replacement : List Char) : (skip : Nat) → List Char → List Char
  | _, [] => []
  | skip + 1, _ :: rest => replaceFrom needle replacement skip rest
  | 0, c :: rest =>
    if needle.isPrefixOf (c :: rest) then
      replacement ++ replaceFrom needle replacement (needle.length - 1) rest
    else c :: replaceFrom needle replacement 0 rest

/-- The text with every occurrence of `needle`, which is not empty, replaced. -/
def replace (needle replacement text : String) : String :=
  String.ofList (replaceFrom needle.toList replacement.toList 0 text.toList)

/-- The parts of a text between the separators; there is always at least one. -/
def split (separator : Char) : List Char → List (List Char)
  | [] => [[]]
  | c :: rest =>
    if c = separator then [] :: split separator rest
    else match split separator rest with
      | [] => [[c]]
      | part :: parts => (c :: part) :: parts

def fields (separator : Char) (s : String) : List String := (split separator s.toList).map String.ofList

def withoutReturn (line : List Char) : List Char :=
  if line.getLast? = some '\r' then line.dropLast else line

/-- The lines of a text without their ends. Nothing behind the last line break is no line, and a last line
    without a break keeps its carriage return. -/
def lines (text : List Char) : List (List Char) :=
  let parts := split '\n' text
  let ended := parts.dropLast.map withoutReturn
  match parts.getLast? with
  | none => []
  | some [] => ended
  | some last => ended ++ [last]

/-- The text without the white space at its start. -/
def trimLeft (s : List Char) : List Char := s.dropWhile isBlank

/-- The text without the white space at its end. -/
def trimRight (s : List Char) : List Char := (s.reverse.dropWhile isBlank).reverse

/-- The text without the white space at either end. -/
def trim (s : List Char) : List Char := trimRight (trimLeft s)

/-- The first run of characters without white space. -/
def firstWord (s : List Char) : List Char := (trimLeft s).takeWhile fun c => !isBlank c

/-- A text filled up with blanks behind it to `width` characters. -/
def padRight (width : Nat) (s : String) : String :=
  s ++ String.ofList (List.replicate (width - s.length) ' ')

/-- A text filled up with blanks in front of it to `width` characters. -/
def padLeft (width : Nat) (s : String) : String :=
  String.ofList (List.replicate (width - s.length) ' ') ++ s

end CycleCost.Text
