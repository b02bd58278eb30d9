/-
Module: CycleCost.Document.Json.Writer
Purpose: Writing a value as JSON text, in one line or with two spaces of indentation per level.
Main exports: quoted, compact, pretty
-/
import CycleCost.Decimal.Layout
import CycleCost.Document.Datum

namespace CycleCost.Document.Json

/-- A character inside quotes: the quote, the backslash and control characters are escaped. -/
def escaped (c : Char) : List Char :=
  if c = '"' then ['\\', '"']
  else if c = '\\' then ['\\', '\\']
  else if c = '\x08' then ['\\', 'b']
  else if c = '\t' then ['\\', 't']
  else if c = '\n' then ['\\', 'n']
  else if c = '\x0c' then ['\\', 'f']
  else if c = '\r' then ['\\', 'r']
  else if c < ' ' then
    ['\\', 'u', '0', '0', Nat.digitChar (c.toNat / 16), Nat.digitChar (c.toNat % 16)]
  else [c]

/-- A text in quotes. -/
def quoted (s : String) : String := String.ofList ('"' :: s.toList.flatMap escaped ++ ['"'])

/-- A float; JSON has no infinities and no non-numbers, so these are null. -/
def realText (x : Float) : String :=
  if x.isFinite then Decimal.Layout.document.text x else "null"

/-- A value without parts. -/
def scalarText : Datum → String
  | .bool true => "true"
  | .bool false => "false"
  | .integer n => toString n
  | .real x => realText x
  | .text s => quoted s
  | _ => "null"

mutual

/-- A value in one line without blanks. -/
def compact : Datum → String
  | .list items => "[" ++ compactItems items ++ "]"
  | .table members => "\x7b" ++ compactMembers members ++ "\x7d"
  | d => scalarText d

/-- Items with commas between them. -/
def compactItems : List Datum → String
  | [] => ""
  | [d] => compact d
  | d :: rest => compact d ++ "," ++ compactItems rest

/-- Members with commas between them. -/
def compactMembers : List (String × Datum) → String
  | [] => ""
  | [(name, d)] => quoted name ++ ":" ++ compact d
  | (name, d) :: rest => quoted name ++ ":" ++ compact d ++ "," ++ compactMembers rest

end

/-- The blanks in front of a line. -/
def margin (depth : Nat) : String := String.ofList (List.replicate (2 * depth) ' ')

mutual

/-- A value with every item and member on a line of its own; empty containers stay in one line. -/
def pretty (depth : Nat) : Datum → String
  | .list [] => "[]"
  | .list items => "[\n" ++ prettyItems (depth + 1) items ++ "\n" ++ margin depth ++ "]"
  | .table [] => "\x7b\x7d"
  | .table members =>
    "\x7b\n" ++ prettyMembers (depth + 1) members ++ "\n" ++ margin depth ++ "\x7d"
  | d => scalarText d

/-- Lines of items. -/
def prettyItems (depth : Nat) : List Datum → String
  | [] => ""
  | [d] => margin depth ++ pretty depth d
  | d :: rest => margin depth ++ pretty depth d ++ ",\n" ++ prettyItems depth rest

/-- Lines of members. -/
def prettyMembers (depth : Nat) : List (String × Datum) → String
  | [] => ""
  | [(name, d)] => margin depth ++ quoted name ++ ": " ++ pretty depth d
  | (name, d) :: rest =>
    margin depth ++ quoted name ++ ": " ++ pretty depth d ++ ",\n" ++ prettyMembers depth rest

end

end CycleCost.Document.Json
