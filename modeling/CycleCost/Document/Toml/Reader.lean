/-
Module: CycleCost.Document.Toml.Reader
Purpose: Reading a TOML 1.0 text: first into statements, then into the tree that they build.
Main exports: keyPath, value, Statement, statements, parse, dialect, read
-/
import CycleCost.Document.Schema
import CycleCost.Document.Toml.Node
import CycleCost.Document.Toml.Scalar

namespace CycleCost.Document.Toml

def isBare (c : Char) : Bool := c.isAlphanum || c = '_' || c = '-'

def skipBlanks (s : List Char) : List Char := s.dropWhile isBlank

/-- What follows blanks, line breaks and comments. -/
def skipLines : (inComment : Bool) → List Char → Option (List Char)
  | _, [] => some []
  | _, '\n' :: rest => skipLines false rest
  | _, '\r' :: '\n' :: rest => skipLines false rest
  | true, c :: rest => if isPlain c then skipLines true rest else none
  | false, c :: rest =>
    if isBlank c then skipLines false rest
    else if c = '#' then skipLines true rest
    else some (c :: rest)

/-- The next line, when nothing but blanks and a comment is left of this one. -/
def nextLine : (inComment : Bool) → List Char → Option (List Char)
  | _, [] => some []
  | _, '\n' :: rest => some rest
  | _, '\r' :: '\n' :: rest => some rest
  | true, c :: rest => if isPlain c then nextLine true rest else none
  | false, c :: rest =>
    if isBlank c then nextLine false rest
    else if c = '#' then nextLine true rest
    else none

/-- One part of a key, bare or quoted, and what follows. -/
def keyPart : List Char → Option (String × List Char)
  | '"' :: rest => basicText rest []
  | '\'' :: rest => literalText rest []
  | s =>
    match s.takeWhile isBare with
    | [] => none
    | part => some (String.ofList part, s.dropWhile isBare)

/-- One more than the most parts that a key may have, and than the most containers that may be open. -/
def nestingLimit : Nat := 80

/-- At most `room` parts of a key with dots between them: all but the last, the last, and what follows the
    blanks behind it. -/
def keyPath : (room : Nat) → List Char → Option (List String × String × List Char)
  | 0, _ => none
  | room + 1, s => do
    let (part, s) ← keyPart (skipBlanks s)
    match skipBlanks s with
    | '.' :: rest =>
      let (path, last, s) ← keyPath room rest
      return (part :: path, last, s)
    | s => return ([], part, s)

def key (s : List Char) : Option (List String × String × List Char) := keyPath (nestingLimit - 1) s

mutual

/-- A value, and what follows. At most `room` containers may be opened within each other; `fuel` is above
    the number of characters. -/
def valueWithin : (fuel room : Nat) → List Char → Option (Datum × List Char)
  | 0, _, _ => none
  | fuel + 1, room, s =>
    match s, room with
    | '[' :: _, 0 => none
    | '\x7b' :: _, 0 => none
    | '[' :: rest, room + 1 => do
      let (items, s) ← itemsWithin fuel room (← skipLines false rest)
      return (.list items, s)
    | '\x7b' :: rest, room + 1 =>
      match skipBlanks rest with
      | '\x7d' :: s => some (.table [], s)
      | s => do
        let (members, s) ← membersWithin fuel room [] s
        return (.table (membersData members), s)
    | s, _ => scalar s

/-- The items of a list up to its end, and what follows; a comma may stand behind the last one. -/
def itemsWithin : (fuel room : Nat) → List Char → Option (List Datum × List Char)
  | 0, _, _ => none
  | _ + 1, _, ']' :: rest => some ([], rest)
  | fuel + 1, room, s => do
    let (d, s) ← valueWithin fuel room s
    match ← skipLines false s with
    | ',' :: rest =>
      let (items, s) ← itemsWithin fuel room (← skipLines false rest)
      return (d :: items, s)
    | ']' :: rest => return ([d], rest)
    | _ => none

/-- The members of a table in one line up to its end, and what follows. -/
def membersWithin : (fuel room : Nat) → Members → List Char → Option (Members × List Char)
  | 0, _, _, _ => none
  | fuel + 1, room, earlier, s => do
    let (path, last, s) ← key s
    match s with
    | '=' :: rest =>
      let (d, s) ← valueWithin fuel room (skipBlanks rest)
      let members ← assign [] path last d earlier
      match skipBlanks s with
      | ',' :: rest => membersWithin fuel room members rest
      | '\x7d' :: rest => return (members, rest)
      | _ => none
    | _ => none

end

/-- A value, and what follows. -/
def value (s : List Char) : Option (Datum × List Char) :=
  valueWithin (s.length + 1) (nestingLimit - 1) s

/-- A statement of a document. -/
inductive Statement where
  | assign (path : List String) (key : String) (d : Datum)
  | table (path : List String) (key : String)
  | element (path : List String) (key : String)

/-- A key with the closing marks of a header behind it, and the next line. -/
def headerEnd (marks : List Char) (s : List Char) : Option (List String × String × List Char) := do
  let (path, last, s) ← key s
  if s.take marks.length = marks then
    return (path, last, ← nextLine false (s.drop marks.length))
  else none

def statement : List Char → Option (Statement × List Char)
  | '[' :: '[' :: rest =>
    (headerEnd "]]".toList rest).map fun (path, last, s) => (.element path last, s)
  | '[' :: rest => (headerEnd "]".toList rest).map fun (path, last, s) => (.table path last, s)
  | s => do
    let (path, last, s) ← key s
    match s with
    | '=' :: rest =>
      let (d, s) ← value (skipBlanks rest)
      return (.assign path last d, ← nextLine false s)
    | _ => none

/-- The statements of a text; `fuel` is above the number of characters. -/
def statementsWithin : (fuel : Nat) → List Char → Option (List Statement)
  | 0, _ => none
  | fuel + 1, s => do
    match ← skipLines false s with
    | [] => return []
    | s =>
      let (first, rest) ← statement s
      return first :: (← statementsWithin fuel rest)

/-- The statements of a text. A byte-order mark may stand at the start. -/
def statements (text : String) : Option (List Statement) :=
  match text.toList with
  | '\uFEFF' :: s => statementsWithin (s.length + 1) s
  | s => statementsWithin (s.length + 1) s

/-- A document between two statements: its members, and the header that the last statements stand under. -/
structure Draft where
  root : Members
  header : List String

def Draft.add (draft : Draft) : Statement → Option Draft
  | .assign path last d => (assign draft.header path last d draft.root).map fun root => { draft with root }
  | .table path last => (openTable path last draft.root).map fun root => ⟨root, path ++ [last]⟩
  | .element path last => (openElement path last draft.root).map fun root => ⟨root, path ++ [last]⟩

def parse (text : String) : Option Datum := do
  let draft ← (← statements text).foldlM Draft.add ⟨[], []⟩
  return .table (membersData draft.root)

/-- In TOML a record given as a list may have surplus items, and an empty container says nothing. -/
def dialect : Dialect where
  surplusAllowed := true
  isUnit
    | .table members => members.isEmpty
    | .list items => items.isEmpty
    | _ => false

def read {β : Type} (parse : Parser) (form : Form β) (text : String) : Option β :=
  (parse text).bind (form.read dialect)

end CycleCost.Document.Toml
