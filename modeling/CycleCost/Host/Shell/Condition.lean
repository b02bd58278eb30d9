/-
Module: CycleCost.Host.Shell.Condition
Purpose: The conditions that a script tests, and the signals that it names.
Main exports: Condition.holds, Condition.signalNumber
-/
import CycleCost.Host.Shell.State
import CycleCost.Text

namespace CycleCost.Host.Condition

/-- What stands at a path. -/
def nodeAt (s : Shell) (path : String) : Option Node :=
  match s.world.tree.find s.directory path with
  | .ok (_, n) => some n
  | .error _ => none

def unary (s : Shell) (operator operand : String) : Option Bool :=
  let node := nodeAt s operand
  match operator with
  | "-z" => some operand.isEmpty
  | "-n" => some !operand.isEmpty
  | "-e" => some node.isSome
  | "-f" => some (node.any fun
    | .file _ _ | .utility _ => true
    | _ => false)
  | "-d" => some (node == some .directory)
  | "-s" => some (node.any fun
    | .file content _ => !content.isEmpty
    | .device => false
    | _ => true)
  | "-r" | "-w" => some node.isSome
  | "-x" => some (node.any fun
    | .file _ executable => executable
    | .directory | .utility _ => true
    | .device => false)
  | "-c" => some (node == some .device)
  | "-L" | "-h" | "-p" | "-S" | "-b" | "-t" => some false
  | _ => none

/-- Why a condition says nothing. -/
inductive Flaw where
  | operator (word : String)
  | missingOperand (word : String)
  | number (word : String)

def Flaw.text : Flaw → String
  | operator word => s!"{word}: unexpected operator"
  | missingOperand word => s!"{word}: argument expected"
  | number word => s!"Illegal number: {word}"

/-- An operand as a number; blanks around it do not count. -/
def numberOf (word : String) : Except Flaw Int :=
  match Script.wholeInteger (String.ofList (Text.trim word.toList)) with
  | some n =>
    if Int64.minValue.toInt ≤ n ∧ n ≤ Int64.maxValue.toInt then .ok n else .error (.number word)
  | none => .error (.number word)

def comparison (operator : String) : Option (Int → Int → Bool) :=
  match operator with
  | "-eq" => some fun m n => m == n
  | "-ne" => some fun m n => m != n
  | "-lt" => some fun m n => m < n
  | "-le" => some fun m n => m ≤ n
  | "-gt" => some fun m n => n < m
  | "-ge" => some fun m n => n ≤ m
  | _ => none

def binary (left operator right : String) : Option (Except Flaw Bool) :=
  match operator with
  | "=" => some (.ok (left == right))
  | "!=" => some (.ok (left != right))
  | _ => (comparison operator).map fun holds => do return holds (← numberOf left) (← numberOf right)

/-- The words before and after the first occurrence of a connective. -/
def splitAtWord (connective : String) (words : List String) : Option (List String × List String) :=
  let before := words.takeWhile (· != connective)
  if before.length < words.length && !before.isEmpty then some (before, words.drop (before.length + 1))
  else none

def holdsWithin (s : Shell) : (fuel : Nat) → List String → Except Flaw Bool
  | 0, words => .error (.operator (words.headD ""))
  | _, [] => .ok false
  | _, [a] => .ok !a.isEmpty
  | fuel + 1, words =>
    match words with
    | [a, b] =>
      if a = "!" then .ok b.isEmpty
      else match unary s a b with
        | some v => .ok v
        | none => .error (if (binary a b "").isSome then .missingOperand b else .operator a)
    | [a, b, c] =>
      match binary a b c with
      | some v => v
      | none =>
        if b = "-a" then .ok (!a.isEmpty && !c.isEmpty)
        else if b = "-o" then .ok (!a.isEmpty || !c.isEmpty)
        else if a = "!" then (holdsWithin s fuel [b, c]).map (!·)
        else if a = "(" && c = ")" then .ok !b.isEmpty
        else .error (.operator b)
    | words =>
      match splitAtWord "-o" words with
      | some (l, r) => do return (← holdsWithin s fuel l) || (← holdsWithin s fuel r)
      | none =>
        match splitAtWord "-a" words with
        | some (l, r) => do return (← holdsWithin s fuel l) && (← holdsWithin s fuel r)
        | none =>
          match words with
          | "!" :: rest => (holdsWithin s fuel rest).map (!·)
          | "(" :: rest =>
            if rest.getLast? = some ")" then holdsWithin s fuel rest.dropLast else .error (.operator "(")
          | words => .error (.operator (words.headD ""))

def holds (s : Shell) (words : List String) : Except Flaw Bool := holdsWithin s (words.length + 1) words

/-- The names of signals with their numbers. -/
def signals : List (String × Nat) :=
  [("EXIT", 0), ("HUP", 1), ("INT", 2), ("QUIT", 3), ("ILL", 4), ("TRAP", 5), ("ABRT", 6), ("BUS", 7),
    ("FPE", 8), ("KILL", 9), ("USR1", 10), ("SEGV", 11), ("USR2", 12), ("PIPE", 13), ("ALRM", 14),
    ("TERM", 15), ("CHLD", 17), ("CONT", 18), ("STOP", 19), ("URG", 23), ("WINCH", 28)]

def signalNumber (s : String) : Option Nat :=
  if !s.isEmpty && s.all Char.isDigit then s.toNat?
  else
    let name := s.toUpper
    match signals.lookup name with
    | some n => some n
    | none => if name.startsWith "SIG" then signals.lookup (String.ofList (name.toList.drop 3)) else none

/-- The signals that a process ignores unless it asks for them. -/
def isHarmless (signal : Nat) : Bool := signal = 0 || signal = 17 || signal = 18 || signal = 23 || signal = 28

end CycleCost.Host.Condition
