/-
Module: CycleCost.Host.Script.Pattern
Purpose: The patterns of a script: what they match, and what they cut off a text.
Main exports: Script.Mark, Script.matchesAll, Script.pattern, Script.cutStart, Script.cutEnd
-/

namespace CycleCost.Host.Script

/-- A part of a pattern. -/
inductive Mark where
  | exact (c : Char)
  /-- Any character. -/
  | one
  /-- Any text. -/
  | any
  /-- A character within one of the ranges, or outside all of them. -/
  | range (outside : Bool) (ranges : List (Char × Char))
  deriving DecidableEq, Repr

def Mark.admits (m : Mark) (c : Char) : Bool :=
  match m with
  | exact d => c = d
  | one | any => true
  | range outside ranges => (ranges.any fun (low, high) => low ≤ c && c ≤ high) != outside

/-- Whether a pattern matches the whole of a text. -/
def matchesAll : List Mark → List Char → Bool
  | [], s => s.isEmpty
  | .any :: ms, [] => matchesAll ms []
  | .any :: ms, c :: rest => matchesAll ms (c :: rest) || matchesAll (.any :: ms) rest
  | _ :: _, [] => false
  | m :: ms, c :: rest => m.admits c && matchesAll ms rest
termination_by ms s => ms.length + s.length

def setRanges : List Char → List (Char × Char)
  | a :: '-' :: b :: rest => (a, b) :: setRanges rest
  | a :: rest => (a, a) :: setRanges rest
  | [] => []

/-- The marks of a pattern whose characters say whether they are quoted; quoted ones match themselves. -/
def marks : (fuel : Nat) → List (Char × Bool) → List Mark
  | 0, _ => []
  | _, [] => []
  | fuel + 1, (c, true) :: rest => .exact c :: marks fuel rest
  | fuel + 1, ('*', false) :: rest => .any :: marks fuel rest
  | fuel + 1, ('?', false) :: rest => .one :: marks fuel rest
  | fuel + 1, ('[', false) :: rest =>
    let letters := rest.map (·.1)
    let (outside, body) := match letters with
      | '!' :: body => (true, body)
      | '^' :: body => (true, body)
      | body => (false, body)
    let inner := body.takeWhile (· ≠ ']')
    if inner.length < body.length && !inner.isEmpty then
      let used := letters.length - body.length + inner.length + 1
      .range outside (setRanges inner) :: marks fuel (rest.drop used)
    else .exact '[' :: marks fuel rest
  | fuel + 1, (c, false) :: rest => .exact c :: marks fuel rest

/-- The pattern of characters that say whether they are quoted. -/
def pattern (s : List (Char × Bool)) : List Mark := marks (s.length + 1) s

/-- The text without the shortest or longest start that the pattern matches. -/
def cutStart (ms : List Mark) (longest : Bool) (s : List Char) : List Char :=
  let lengths := List.range (s.length + 1)
  let order := if longest then lengths.reverse else lengths
  match order.find? fun n => matchesAll ms (s.take n) with
  | some n => s.drop n
  | none => s

/-- The text without the shortest or longest end that the pattern matches. -/
def cutEnd (ms : List Mark) (longest : Bool) (s : List Char) : List Char :=
  let lengths := List.range (s.length + 1)
  let order := if longest then lengths else lengths.reverse
  match order.find? fun n => matchesAll ms (s.drop n) with
  | some n => s.take n
  | none => s

end CycleCost.Host.Script
