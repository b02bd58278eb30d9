/-
Module: CycleCost.Host.Script.Reader
Purpose: Reading the commands of a script.
Main exports: Script.Reading, Script.parse
-/
import CycleCost.Host.Script.Word

namespace CycleCost.Host.Script

/-- What follows blanks, comments and line breaks. -/
def skipLines : (fuel : Nat) → List Char → List Char
  | 0, s => s
  | fuel + 1, s =>
    match skipBlanks s with
    | '\n' :: rest => skipLines fuel rest
    | s => s

/-- The characters up to the end of a word, whatever they are. -/
def bareWord (s : List Char) : List Char := s.takeWhile fun c => !endsWord c

/-- What follows a reserved word that stands here. -/
def afterReserved? (name : String) (s : List Char) : Option (List Char) :=
  let s := skipBlanks s
  if bareWord s = name.toList then some (s.drop name.length) else none

/-- What follows a reserved word that stands here after line breaks. -/
def reserved (name : String) (s : List Char) : Option (List Char) :=
  afterReserved? name (skipLines s.length s)

/-- The words that end a list of commands. -/
def closers : List String := ["then", "do", "done", "fi", "else", "elif", "esac", "\x7d"]

/-- Whether no further command of a list stands here. -/
def endsList (s : List Char) : Bool :=
  match s with
  | [] => true
  | ')' :: _ => true
  | ';' :: ';' :: _ => true
  | s => closers.any fun name => bareWord s = name.toList

/-- The word of a here-document and the text without it: from the next line on, up to a line that is the
    mark. -/
def hereDocument (mark : List Char) (stripTabs : Bool) (s : List Char) :
    List Char × List Char :=
  let line := s.takeWhile (· ≠ '\n')
  let rec body : List Char → List Char → List Char → List Char × List Char
    | [], current, read => (read ++ current.reverse, [])
    | '\n' :: rest, current, read =>
      let text := current.reverse
      let text := if stripTabs then text.dropWhile (· = '\t') else text
      if text = mark then (read, rest) else body rest [] (read ++ text ++ ['\n'])
    | c :: rest, current, read => body rest (c :: current) read
  let (text, rest) := body ((s.dropWhile (· ≠ '\n')).drop 1) [] []
  (text, line ++ '\n' :: rest)

/-- The quoted and plain characters of a word without expansions. -/
def literalText (w : Word) : List Char :=
  w.flatMap fun piece => match piece with
    | .plain s => s.toList
    | .quoted s => s.toList
    | _ => []

def Piece.isQuoted : Piece → Bool
  | .quoted _ => true
  | _ => false

/-- The sign of a redirection, and what follows it. -/
def directionAhead (s : List Char) : Option (Direction × Nat × List Char) :=
  match s with
  | '>' :: '>' :: rest => some (.append, 1, rest)
  | '>' :: '&' :: rest => some (.duplicate, 1, rest)
  | '>' :: '|' :: rest => some (.output, 1, rest)
  | '>' :: rest => some (.output, 1, rest)
  | '<' :: '<' :: rest => some (.here, 0, rest)
  | '<' :: '&' :: rest => some (.duplicate, 0, rest)
  | '<' :: rest => some (.input, 0, rest)
  | _ => none

/-- A redirection, and what follows; none when something else stands here. -/
def redirectAhead (s : List Char) : Option (Option (Redirect × List Char)) :=
  let digits := s.takeWhile Char.isDigit
  match directionAhead (s.dropWhile Char.isDigit) with
  | none => some none
  | some (direction, usual, rest) => do
    let descriptor := if digits.isEmpty then usual
      else digits.foldl (fun n c => n * 10 + (c.toNat - '0'.toNat)) 0
    let (stripTabs, rest) := match direction, rest with
      | .here, '-' :: rest => (true, rest)
      | _, rest => (false, rest)
    let (target, rest) ← word (skipBlanks rest)
    match direction with
    | .here =>
      let (text, rest) := hereDocument (literalText target) stripTabs rest
      let pieces ←
        if target.any Piece.isQuoted then some [Piece.quoted (String.ofList text)]
        else (quotedPieces (text.length + 1) none text []).map (·.1)
      return some (⟨descriptor, direction, pieces⟩, rest)
    | _ => return some (⟨descriptor, direction, target⟩, rest)

/-- The redirections that stand here, and what follows. -/
def redirectsAhead : (fuel : Nat) → List Char → List Redirect → Option (List Redirect × List Char)
  | 0, _, _ => none
  | fuel + 1, s, read => do
    match ← redirectAhead (skipBlanks s) with
    | some (r, rest) => redirectsAhead fuel rest (r :: read)
    | none => return (read.reverse, s)

/-- An assignment: a name, an equals sign and the parts behind it. -/
def assignment? (w : Word) : Option (String × Word) :=
  let letters := (w.takeWhile fun piece => match piece with
    | .plain _ => true
    | _ => false).flatMap fun piece => match piece with
    | .plain s => s.toList
    | _ => []
  let name := letters.takeWhile (· ≠ '=')
  if name.length < letters.length && isName name then
    some (String.ofList name, w.drop (name.length + 1))
  else none

structure SimpleParts where
  assignments : List (String × Word)
  words : List Word
  redirects : List Redirect

/-- The parts of a simple command, and what follows; each list has the latest first. -/
def simpleAhead : (fuel : Nat) → List Char → SimpleParts → Option (SimpleParts × List Char)
  | 0, _, _ => none
  | fuel + 1, s, parts => do
    let s := skipBlanks s
    match ← redirectAhead s with
    | some (r, rest) => simpleAhead fuel rest { parts with redirects := r :: parts.redirects }
    | none =>
      match s with
      | [] => return (parts, [])
      | c :: _ =>
        if endsWord c then return (parts, s)
        else
          let (w, rest) ← word s
          match assignment? w with
          | some a =>
            if parts.words.isEmpty then
              simpleAhead fuel rest { parts with assignments := a :: parts.assignments }
            else simpleAhead fuel rest { parts with words := w :: parts.words }
          | none => simpleAhead fuel rest { parts with words := w :: parts.words }

/-- Words up to the end of a list of them, and what follows. -/
def wordsAhead : (fuel : Nat) → List Char → Option (List Word × List Char)
  | 0, _ => none
  | fuel + 1, s =>
    match skipBlanks s with
    | [] => some ([], [])
    | c :: rest =>
      if endsWord c then some ([], c :: rest)
      else do
        let (w, s) ← word (c :: rest)
        let (ws, s) ← wordsAhead fuel s
        return (w :: ws, s)

/-- The patterns of a case up to the closing parenthesis, and what follows. -/
def patternsAhead : (fuel : Nat) → List Char → Option (List Word × List Char)
  | 0, _ => none
  | fuel + 1, s => do
    let (w, s) ← word (skipBlanks s)
    match skipBlanks s with
    | '|' :: rest =>
      let (ws, s) ← patternsAhead fuel rest
      return (w :: ws, s)
    | ')' :: rest => return ([w], rest)
    | _ => none

def breaks (s : List Char) : Nat := s.count '\n'

/-- The number of the line at which a rest of the script starts. -/
def lineAt (total : Nat) (s : List Char) : Nat := total - breaks s + 1

/-- What follows the parentheses behind the name of a function that is defined here. -/
def parenthesesAhead (name : String) (s : List Char) : Option (List Char) :=
  match skipBlanks s with
  | '(' :: rest =>
    match isName name.toList, skipBlanks rest with
    | true, ')' :: rest => some rest
    | _, _ => none
  | _ => none

def withRedirects (line : Nat) (c : Command) (s : List Char) : Option (Command × List Char) := do
  let (redirects, after) ← redirectsAhead (s.length + 1) s []
  return (if redirects.isEmpty then c else .redirected line c redirects, after)

mutual

/-- The commands up to the end of a list, and what follows. `total` is the number of line breaks of the whole
    script. -/
def listAhead : (fuel : Nat) → (total : Nat) → List Char → Option (Command × List Char)
  | 0, _, _ => none
  | fuel + 1, total, s => do
    let s := skipLines s.length s
    if endsList s then return (.nothing, s)
    let (first, s) ← andOrAhead fuel total s
    match skipBlanks s with
    | ';' :: ';' :: rest => return (first, ';' :: ';' :: rest)
    | c :: rest =>
      if c = ';' || c = '\n' || c = '&' then
        let (others, s) ← listAhead fuel total rest
        return (.sequence (if c = '&' then .detached first else first) others, s)
      else return (first, c :: rest)
    | [] => return (first, [])

/-- Pipelines with `&&` and `||` between them, and what follows. -/
def andOrAhead : (fuel : Nat) → (total : Nat) → List Char → Option (Command × List Char)
  | 0, _, _ => none
  | fuel + 1, total, s => do
    let (first, s) ← pipelineAhead fuel total s
    andOrRest fuel total first s

/-- The pipelines behind a first one. -/
def andOrRest : (fuel : Nat) → (total : Nat) → Command → List Char → Option (Command × List Char)
  | 0, _, _, _ => none
  | fuel + 1, total, first, s =>
    match skipBlanks s with
    | '&' :: '&' :: rest => do
      let (second, s) ← pipelineAhead fuel total (skipLines rest.length rest)
      andOrRest fuel total (.both first second) s
    | '|' :: '|' :: rest => do
      let (second, s) ← pipelineAhead fuel total (skipLines rest.length rest)
      andOrRest fuel total (.either first second) s
    | s => some (first, s)

/-- Commands with `|` between them, and what follows. -/
def pipelineAhead : (fuel : Nat) → (total : Nat) → List Char → Option (Command × List Char)
  | 0, _, _ => none
  | fuel + 1, total, s =>
    match afterReserved? "!" s with
    | some s => do
      let (c, s) ← pipelineAhead fuel total s
      return (.negate c, s)
    | none => do
      let (first, s) ← commandAhead fuel total s
      match skipBlanks s with
      | '|' :: '|' :: rest => return (first, '|' :: '|' :: rest)
      | '|' :: rest =>
        let (others, s) ← pipelineAhead fuel total (skipLines rest.length rest)
        return (.pipe first others, s)
      | s => return (first, s)

def commandAhead : (fuel : Nat) → (total : Nat) → List Char → Option (Command × List Char)
  | 0, _, _ => none
  | fuel + 1, total, s => do
    let s := skipBlanks s
    match s with
    | '(' :: rest =>
      let (c, after) ← listAhead fuel total rest
      match after with
      | ')' :: rest => withRedirects (lineAt total s) (.subshell c) rest
      | _ => none
    | s =>
      let name := String.ofList (bareWord s)
      let rest := s.drop name.length
      match name with
      | "\x7b" => do
        let (c, after) ← listAhead fuel total rest
        withRedirects (lineAt total s) c (← afterReserved? "\x7d" after)
      | "if" => do
        let (c, after) ← ifAhead fuel total rest
        withRedirects (lineAt total s) c after
      | "while" => do
        let (c, after) ← loopAhead fuel total false rest
        withRedirects (lineAt total s) c after
      | "until" => do
        let (c, after) ← loopAhead fuel total true rest
        withRedirects (lineAt total s) c after
      | "for" => do
        let (c, after) ← forAhead fuel total rest
        withRedirects (lineAt total s) c after
      | "case" => do
        let (subject, after) ← word (skipBlanks rest)
        let (cases, after) ← casesAhead fuel total (← reserved "in" after)
        withRedirects (lineAt total s) (.choose subject cases) after
      | _ =>
        match parenthesesAhead name rest with
        | some body =>
          let (body, after) ← commandAhead fuel total (skipLines body.length body)
          return (.define name body, after)
        | none =>
          if name ∈ closers then none
          let (parts, after) ← simpleAhead (s.length + 1) s ⟨[], [], []⟩
          if parts.assignments.isEmpty && parts.words.isEmpty && parts.redirects.isEmpty then none
          else
            return (.simple (lineAt total s) parts.assignments.reverse parts.words.reverse
              parts.redirects.reverse, after)

/-- The parts of a conditional behind its first word, and what follows. -/
def ifAhead : (fuel : Nat) → (total : Nat) → List Char → Option (Command × List Char)
  | 0, _, _ => none
  | fuel + 1, total, s => do
    let (condition, s) ← listAhead fuel total s
    let (thenPart, s) ← listAhead fuel total (← reserved "then" s)
    match reserved "elif" s, reserved "else" s with
    | some s, _ =>
      let (elsePart, s) ← ifAhead fuel total s
      return (.branch condition thenPart elsePart, s)
    | none, some s =>
      let (elsePart, s) ← listAhead fuel total s
      return (.branch condition thenPart elsePart, ← reserved "fi" s)
    | none, none => return (.branch condition thenPart .nothing, ← reserved "fi" s)

/-- The parts of a loop behind its first word, and what follows. -/
def loopAhead : (fuel : Nat) → (total : Nat) → Bool → List Char → Option (Command × List Char)
  | 0, _, _, _ => none
  | fuel + 1, total, whileFails, s => do
    let (condition, s) ← listAhead fuel total s
    let (body, s) ← listAhead fuel total (← reserved "do" s)
    return (.loop whileFails condition body, ← reserved "done" s)

/-- The parts of a loop over words behind its first word, and what follows. -/
def forAhead : (fuel : Nat) → (total : Nat) → List Char → Option (Command × List Char)
  | 0, _, _ => none
  | fuel + 1, total, s => do
    let s := skipBlanks s
    let name := bareWord s
    if !isName name then none
    let s := s.drop name.length
    let (words, s) ← match reserved "in" s with
      | some s => do
        let (ws, s) ← wordsAhead (s.length + 1) s
        some (some ws, s)
      | none => some (none, s)
    let s := match skipBlanks s with
      | ';' :: rest => rest
      | s => s
    let (body, s) ← listAhead fuel total (← reserved "do" s)
    return (.each (String.ofList name) words body, ← reserved "done" s)

/-- The cases of a choice up to its end, and what follows. -/
def casesAhead : (fuel : Nat) → (total : Nat) → List Char →
    Option (List (List Word × Command) × List Char)
  | 0, _, _ => none
  | fuel + 1, total, s =>
    match reserved "esac" s with
    | some s => some ([], s)
    | none => do
      let s := skipLines s.length s
      let s := match s with
        | '(' :: rest => rest
        | s => s
      let (patterns, s) ← patternsAhead (s.length + 1) s
      let (body, s) ← listAhead fuel total s
      match skipLines s.length s with
      | ';' :: ';' :: rest =>
        let (cases, s) ← casesAhead fuel total rest
        return ((patterns, body) :: cases, s)
      | s => return ([(patterns, body)], ← reserved "esac" s)

end

/-- The commands up to the end of a line, and what follows. -/
def lineAhead : (fuel : Nat) → (total : Nat) → List Char → Option (Command × List Char)
  | 0, _, _ => none
  | fuel + 1, total, s =>
    match skipBlanks s with
    | [] => some (.nothing, [])
    | '\n' :: rest => some (.nothing, rest)
    | s => do
      let (first, s) ← andOrAhead (8 * s.length + 16) total s
      match skipBlanks s with
      | [] => return (first, [])
      | c :: rest =>
        if c = '\n' then return (first, rest)
        else if c = ';' || c = '&' then
          let (others, s) ← lineAhead fuel total rest
          return (.sequence (if c = '&' then .detached first else first) others, s)
        else none

/-- What a script says. A malformed line is found only when the lines in front of it have been run. -/
structure Reading where
  commands : List Command
  /-- Whether the commands are the whole script. -/
  isWhole : Bool

/-- The lines of a script, up to its end or the first malformed one. -/
def linesAhead : (fuel : Nat) → (total : Nat) → List Char → Reading
  | 0, _, _ => ⟨[], false⟩
  | fuel + 1, total, s =>
    match skipLines s.length s with
    | [] => ⟨[], true⟩
    | s =>
      match lineAhead (s.length + 1) total s with
      | none => ⟨[], false⟩
      | some (c, rest) =>
        let others := linesAhead fuel total rest
        ⟨c :: others.commands, others.isWhole⟩

def parse (text : String) : Reading :=
  let s := text.toList
  linesAhead (s.length + 1) (breaks s) s

end CycleCost.Host.Script
