/-
Module: CycleCost.Command.Switch
Purpose: The words of a command line and the options among them. An option is written out behind two dashes,
  or as a letter behind one; its value follows in the same word or as the next one.
Main exports: Switch, Use, Misuse, scan
-/

namespace CycleCost.Command

/-- How often an option may be used, and whether it takes a value. -/
inductive Arity where
  /-- No value; it may be used again and again. -/
  | mark
  /-- No value, and nothing behind it is read. -/
  | final
  /-- One value, and one use. -/
  | single
  /-- One value with every use. -/
  | many
  deriving DecidableEq, Repr

/-- An option. -/
structure Switch where
  name : String
  letter : Option Char
  arity : Arity
  deriving DecidableEq, Repr

/-- One use of an option. A mark has the empty value. -/
structure Use where
  name : String
  value : String
  deriving DecidableEq, Repr

/-- A command line that is not understood. -/
inductive Misuse where
  | unknownOption (word : String)
  | unexpectedWord (word : String)
  | missingValue (option : String)
  | unexpectedValue (option : String)
  | repeatedOption (option : String)
  | badValue (option value : String)
  | missingOption (option : String)
  | missingCommand
  deriving DecidableEq, Repr

/-- What a word of the command line looks like. -/
inductive Shape where
  /-- Two dashes alone: no options from here on. -/
  | ending
  /-- An option written out, with the text behind the first equals sign. -/
  | long (name : String) (attached : Option String)
  /-- One dash and letters. -/
  | letters (letters : List Char)
  /-- Anything else; a single dash is an ordinary word. -/
  | plain
  deriving DecidableEq, Repr

/-- The text behind the first equals sign. -/
def attachedValue (word : List Char) : Option String :=
  match word.dropWhile (· ≠ '=') with
  | [] => none
  | _ :: value => some (String.ofList value)

def shape (word : String) : Shape :=
  match word.toList with
  | ['-', '-'] => .ending
  | '-' :: '-' :: rest => .long (String.ofList (rest.takeWhile (· ≠ '='))) (attachedValue rest)
  | '-' :: c :: rest => .letters (c :: rest)
  | _ => .plain

/-- One more use of an option, unless that is one too many. -/
def use (s : Switch) (value : String) (uses : List Use) : Except Misuse (List Use) :=
  if s.arity = .single ∧ uses.any (·.name == s.name) then .error (.repeatedOption s.name)
  else .ok (uses ++ [⟨s.name, value⟩])

/-- Reads the letters of one word. The first letter whose option takes a value has the rest of the word as that
    value, without an equals sign in front; with no rest, the option is left waiting for the next word. -/
def readLetters (switches : List Switch) :
    List Char → List Use → Except Misuse (List Use × Option Switch)
  | [], uses => .ok (uses, none)
  | c :: rest, uses =>
    match switches.find? (·.letter == some c) with
    | none => .error (.unknownOption (String.ofList ['-', c]))
    | some s =>
      match s.arity, rest with
      | .mark, _ => do readLetters switches rest (← use s "" uses)
      | .final, _ => do return (← use s "" uses, none)
      | _, [] => .ok (uses, some s)
      | _, '=' :: value => do return (← use s (String.ofList value) uses, none)
      | _, value => do return (← use s (String.ofList value) uses, none)

/-- Reads an option written out; one that takes a value and has none is left waiting. -/
def readLong (switches : List Switch) (name : String) (attached : Option String) (uses : List Use) :
    Except Misuse (List Use × Option Switch) :=
  match switches.find? (·.name == name) with
  | none => .error (.unknownOption ("--" ++ name))
  | some s =>
    match s.arity, attached with
    | .mark, none | .final, none => do return (← use s "" uses, none)
    | .mark, some _ | .final, some _ => .error (.unexpectedValue s.name)
    | _, some value => do return (← use s value uses, none)
    | _, none => .ok (uses, some s)

/-- The uses of options, and the word that is no option with the words behind it. -/
structure Scanned where
  uses : List Use
  rest : Option (String × List String)

/-- Whether an option has been used behind which nothing is read. -/
def isOver (switches : List Switch) (uses : List Use) : Bool :=
  uses.any fun u => switches.any fun s => s.arity = .final && s.name == u.name

/-- Reads words up to the first one that is neither an option nor the value of one. `waiting` is the option
    whose value comes next; a word that looks like an option is no value. -/
def scan (switches : List Switch) : Option Switch → List String → List Use → Except Misuse Scanned
  | none, [], uses => .ok ⟨uses, none⟩
  | some s, [], _ => .error (.missingValue s.name)
  | some s, word :: words, uses =>
    match shape word with
    | .plain => do scan switches none words (← use s word uses)
    | _ => .error (.missingValue s.name)
  | none, word :: words, uses =>
    match shape word with
    | .ending =>
      match words with
      | [] => .ok ⟨uses, none⟩
      | behind :: _ => .error (.unexpectedWord behind)
    | .long name attached => do
      let (uses, waiting) ← readLong switches name attached uses
      if isOver switches uses then return ⟨uses, none⟩ else scan switches waiting words uses
    | .letters cs => do
      let (uses, waiting) ← readLetters switches cs uses
      if isOver switches uses then return ⟨uses, none⟩ else scan switches waiting words uses
    | .plain => .ok ⟨uses, some (word, words)⟩

end CycleCost.Command
