/-
Module: CycleCost.Host.Script.Word
Purpose: Reading the words of a script: quoting and the expansions that a dollar sign or a back quote starts.
Main exports: Script.word, Script.quotedPieces, Script.skipBlanks, Script.isName
-/
import CycleCost.Host.Script

namespace CycleCost.Host.Script

def isBlank (c : Char) : Bool := c = ' ' || c = '\t'

def endsWord (c : Char) : Bool :=
  isBlank c || c = '\n' || c = ';' || c = '&' || c = '|' || c = '<' || c = '>' || c = '(' || c = ')'

def isNameChar (c : Char) : Bool := c.isAlphanum || c = '_'

def isName (s : List Char) : Bool :=
  match s with
  | [] => false
  | c :: _ => !c.isDigit && s.all isNameChar

/-- The parameters that a single special character names. -/
def isSpecial (c : Char) : Bool :=
  c = '@' || c = '*' || c = '#' || c = '?' || c = '-' || c = '$' || c = '!'

/-- What follows blanks, continued lines and a comment that starts here. -/
def skipBlanks : List Char → List Char
  | '\\' :: '\n' :: rest => skipBlanks rest
  | ' ' :: rest => skipBlanks rest
  | '\t' :: rest => skipBlanks rest
  | '#' :: rest => rest.dropWhile (· ≠ '\n')
  | s => s

/-- A text in apostrophes, behind the opening one, and what follows. -/
def apostropheText (s : List Char) : Option (List Char × List Char) :=
  match s.dropWhile (· ≠ '\'') with
  | '\'' :: rest => some (s.takeWhile (· ≠ '\''), rest)
  | _ => none

/-- The text up to the parenthesis that closes `depth` open ones, and what follows it. Parentheses in quotes
    do not count; `quote` is the mark inside which we are. -/
def balanced : (depth : Nat) → (quote : Option Char) → List Char → List Char →
    Option (List Char × List Char)
  | _, _, [], _ => none
  | depth, some '\'', c :: rest, seen =>
    balanced depth (if c = '\'' then none else some '\'') rest (c :: seen)
  | depth, quote, '\\' :: c :: rest, seen => balanced depth quote rest (c :: '\\' :: seen)
  | depth, some q, c :: rest, seen => balanced depth (if c = q then none else some q) rest (c :: seen)
  | depth, none, c :: rest, seen =>
    if c = '\'' || c = '"' then balanced depth (some c) rest (c :: seen)
    else if c = '(' then balanced (depth + 1) none rest (c :: seen)
    else if c = ')' then
      match depth with
      | 0 => none
      | 1 => some (seen.reverse, rest)
      | depth + 2 => balanced (depth + 1) none rest (c :: seen)
    else balanced depth none rest (c :: seen)

/-- The script between back quotes, behind the opening one, and what follows. -/
def backQuoted : List Char → List Char → Option (List Char × List Char)
  | [], _ => none
  | '`' :: rest, seen => some (seen.reverse, rest)
  | '\\' :: c :: rest, seen =>
    if c = '`' || c = '\\' || c = '$' then backQuoted rest (c :: seen)
    else backQuoted rest (c :: '\\' :: seen)
  | c :: rest, seen => backQuoted rest (c :: seen)

/-- What an expansion in braces does, and what follows the sign of it. -/
def changeAhead (s : List Char) : Option (Change × List Char) :=
  match s with
  | ':' :: '-' :: rest => some (.fallback true, rest)
  | '-' :: rest => some (.fallback false, rest)
  | ':' :: '=' :: rest => some (.assign true, rest)
  | '=' :: rest => some (.assign false, rest)
  | ':' :: '+' :: rest => some (.alternative true, rest)
  | '+' :: rest => some (.alternative false, rest)
  | ':' :: '?' :: rest => some (.demand true, rest)
  | '?' :: rest => some (.demand false, rest)
  | '#' :: '#' :: rest => some (.dropStart true, rest)
  | '#' :: rest => some (.dropStart false, rest)
  | '%' :: '%' :: rest => some (.dropEnd true, rest)
  | '%' :: rest => some (.dropEnd false, rest)
  | _ => none

/-- The name of a parameter, and what follows. In braces a number may have several digits. -/
def parameterName (inBraces : Bool) (s : List Char) : Option (List Char × List Char) :=
  match s with
  | [] => none
  | c :: rest =>
    if c.isDigit then
      if inBraces then some (s.takeWhile Char.isDigit, s.dropWhile Char.isDigit) else some ([c], rest)
    else if isSpecial c then some ([c], rest)
    else if isNameChar c then some (s.takeWhile isNameChar, s.dropWhile isNameChar)
    else none

mutual

/-- An expansion behind a dollar sign, and what follows; a dollar sign that starts none stands for itself. -/
def expansion : (fuel : Nat) → (isQuoted : Bool) → List Char → Option (Piece × List Char)
  | 0, _, _ => none
  | fuel + 1, isQuoted, s =>
    match s with
    | '(' :: '(' :: rest =>
      match balanced 2 none rest [] with
      | some (inner, rest) => do
        let (pieces, _) ← quotedPieces fuel none inner.dropLast []
        return (.arithmetic isQuoted pieces, rest)
      | none => none
    | '(' :: rest => do
      let (inner, rest) ← balanced 1 none rest []
      return (.output isQuoted (String.ofList inner), rest)
    | '\x7b' :: '#' :: rest =>
      match parameterName true rest with
      | some (name, '\x7d' :: rest) =>
        some (.parameter isQuoted (String.ofList name) .length [], rest)
      | _ => braced fuel isQuoted ('#' :: rest)
    | '\x7b' :: rest => braced fuel isQuoted rest
    | s =>
      match parameterName false s with
      | some (name, rest) => some (.parameter isQuoted (String.ofList name) .keep [], rest)
      | none => some (if isQuoted then .quoted "$" else .plain "$", s)

/-- An expansion in braces behind the opening one, and what follows. -/
def braced : (fuel : Nat) → (isQuoted : Bool) → List Char → Option (Piece × List Char)
  | 0, _, _ => none
  | fuel + 1, isQuoted, s => do
    let (name, s) ← parameterName true s
    match s with
    | '\x7d' :: rest => return (.parameter isQuoted (String.ofList name) .keep [], rest)
    | s =>
      let (change, s) ← changeAhead s
      let (pieces, s) ← bracedWord fuel s []
      return (.parameter isQuoted (String.ofList name) change pieces, s)

/-- The word of an expansion up to the closing brace, and what follows. -/
def bracedWord : (fuel : Nat) → List Char → List Piece → Option (List Piece × List Char)
  | 0, _, _ => none
  | fuel + 1, s, read =>
    match s with
    | [] => none
    | '\x7d' :: rest => some (read.reverse, rest)
    | '\\' :: c :: rest => bracedWord fuel rest (.quoted c.toString :: read)
    | '\'' :: rest => do
      let (text, rest) ← apostropheText rest
      bracedWord fuel rest (.quoted (String.ofList text) :: read)
    | '"' :: rest => do
      let (pieces, rest) ← quotedPieces fuel (some '"') rest []
      bracedWord fuel rest (pieces.reverse ++ read)
    | '$' :: rest => do
      let (piece, rest) ← expansion fuel false rest
      bracedWord fuel rest (piece :: read)
    | c :: rest => bracedWord fuel rest (.plain c.toString :: read)

/-- The parts of a quoted text up to its closing mark, or without one up to the end, and what follows. -/
def quotedPieces : (fuel : Nat) → (close : Option Char) → List Char → List Piece →
    Option (List Piece × List Char)
  | 0, _, _, _ => none
  | fuel + 1, close, s, read =>
    match s with
    | [] => if close.isNone then some (read.reverse, []) else none
    | '\\' :: '\n' :: rest => quotedPieces fuel close rest read
    | '\\' :: c :: rest =>
      if c = '$' || c = '`' || c = '"' || c = '\\' then
        quotedPieces fuel close rest (.quoted c.toString :: read)
      else quotedPieces fuel close rest (.quoted c.toString :: .quoted "\\" :: read)
    | '$' :: rest => do
      let (piece, rest) ← expansion fuel true rest
      quotedPieces fuel close rest (piece :: read)
    | '`' :: rest => do
      let (inner, rest) ← backQuoted rest []
      quotedPieces fuel close rest (.output true (String.ofList inner) :: read)
    | c :: rest =>
      if close = some c then some (read.reverse, rest)
      else quotedPieces fuel close rest (.quoted c.toString :: read)

end

/-- The parts of a word, the latest first, and what follows. -/
def wordPieces : (fuel : Nat) → List Char → List Piece → Option (List Piece × List Char)
  | 0, _, _ => none
  | fuel + 1, s, read =>
    match s with
    | [] => some (read, [])
    | '\\' :: '\n' :: rest => wordPieces fuel rest read
    | '\\' :: c :: rest => wordPieces fuel rest (.quoted c.toString :: read)
    | '\'' :: rest => do
      let (text, rest) ← apostropheText rest
      wordPieces fuel rest (.quoted (String.ofList text) :: read)
    | '"' :: rest => do
      let (pieces, rest) ← quotedPieces fuel (some '"') rest []
      wordPieces fuel rest (if pieces.isEmpty then .quoted "" :: read else pieces.reverse ++ read)
    | '$' :: rest => do
      let (piece, rest) ← expansion fuel false rest
      wordPieces fuel rest (piece :: read)
    | '`' :: rest => do
      let (inner, rest) ← backQuoted rest []
      wordPieces fuel rest (.output false (String.ofList inner) :: read)
    | c :: rest =>
      if endsWord c then some (read, s) else wordPieces fuel rest (.plain c.toString :: read)

/-- A word of at least one part, and what follows. -/
def word (s : List Char) : Option (Word × List Char) :=
  match wordPieces (s.length + 1) s [] with
  | some ([], _) => none
  | some (read, rest) => some (read.reverse, rest)
  | none => none

end CycleCost.Host.Script
