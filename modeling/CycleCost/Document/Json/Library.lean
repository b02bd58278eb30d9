/-
Module: CycleCost.Document.Json.Library
Purpose: What the reports need of a library for JSON texts, and the library that the program has. All that is
  read and written in forms goes through such a library.
Main exports: Library, Library.read, Library.write, Library.writePretty, dialect, numeric, standard
-/
import CycleCost.Document.Json.Number
import CycleCost.Document.Json.Reader
import CycleCost.Document.Json.Writer
import CycleCost.Document.Schema

namespace CycleCost.Document.Json

/-- A reader and two writers of JSON texts. -/
structure Library where
  parse : Parser
  /-- The text of a value in one line. -/
  compact : Datum → String
  /-- The text of a value over several lines. -/
  pretty : Datum → String

/-- In JSON a record given as a list has exactly its fields, and null says nothing. -/
def dialect : Dialect where
  surplusAllowed := false
  isUnit
    | .null => true
    | _ => false

namespace Library

variable (lib : Library) {β : Type} (form : Form β)

def read (text : String) : Option β := (lib.parse text).bind (form.read dialect)

/-- A value of a form in one line. -/
def write (v : β) : String := lib.compact (form.write v)

/-- A value of a form over several lines. -/
def writePretty (v : β) : String := lib.pretty (form.write v)

end Library

/-- The library whose reader has this float for a numeral. -/
def numeric (float : Decimal.Numeral → Float) : Library := ⟨parse float, compact, pretty 0⟩

/-- The library of the program. -/
def standard : Library := numeric approximate

end CycleCost.Document.Json
