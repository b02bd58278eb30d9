/-
Module: CycleCost.Host.Script
Purpose: The scripts that programs of a simulated host are written in: a fragment of the POSIX shell command
  language as data. Words keep what was quoted, because only unquoted results are cut into fields.
Main exports: Script.Change, Script.Piece, Script.Word, Script.Redirect, Script.Command
-/

namespace CycleCost.Host.Script

/-- What a parameter expansion does with the value. -/
inductive Change where
  | keep
  | length
  /-- The word instead of a value that is missing or, if asked for, empty. -/
  | fallback (ifEmpty : Bool)
  /-- As `fallback`, and the parameter is set to the word. -/
  | assign (ifEmpty : Bool)
  /-- The word instead of a value that is there. -/
  | alternative (ifEmpty : Bool)
  /-- The script ends when the value is missing. -/
  | demand (ifEmpty : Bool)
  | dropStart (longest : Bool)
  | dropEnd (longest : Bool)
  deriving DecidableEq, Repr

/-- A part of a word. -/
inductive Piece where
  | plain (text : String)
  | quoted (text : String)
  | parameter (isQuoted : Bool) (name : String) (change : Change) (word : List Piece)
  | arithmetic (isQuoted : Bool) (expression : List Piece)
  /-- The output of a script. -/
  | output (isQuoted : Bool) (script : String)
  deriving Inhabited

/-- Parts that stand together without blanks. -/
abbrev Word := List Piece

inductive Direction where
  | input
  | output
  | append
  | duplicate
  /-- The word itself is the input. -/
  | here
  deriving DecidableEq, Repr

/-- A descriptor led elsewhere. -/
structure Redirect where
  descriptor : Nat
  direction : Direction
  target : Word

inductive Command where
  /-- Assignments, and a name with its arguments; the number is that of the line. -/
  | simple (line : Nat) (assignments : List (String × Word)) (words : List Word)
      (redirects : List Redirect)
  | nothing
  | pipe (left right : Command)
  | negate (command : Command)
  | both (left right : Command)
  | either (left right : Command)
  | sequence (first second : Command)
  | branch (condition thenPart elsePart : Command)
  /-- Repeats the body while the condition succeeds, or while it fails. -/
  | loop (whileFails : Bool) (condition body : Command)
  /-- Without words, over the arguments. -/
  | each (name : String) (words : Option (List Word)) (body : Command)
  | choose (subject : Word) (cases : List (List Word × Command))
  /-- The number is that of the line. -/
  | redirected (line : Nat) (command : Command) (redirects : List Redirect)
  | subshell (command : Command)
  /-- Not waited for. -/
  | detached (command : Command)
  | define (name : String) (body : Command)
  deriving Inhabited

end CycleCost.Host.Script
