/-
Module: CycleCost.Host.Script.Arithmetic
Purpose: Arithmetic expansions: integers of 64 bits with a sign, the operators on them, and assignments.
Main exports: Script.Expression, Script.Expression.parse, Script.Expression.value
-/
import CycleCost.Decimal.Numeral

namespace CycleCost.Host.Script

inductive Expression where
  | number (n : Int)
  | variable (name : String)
  | unary (operator : String) (e : Expression)
  | binary (operator : String) (left right : Expression)
  | conditional (test thenPart elsePart : Expression)
  /-- An assignment, with the operator that joins the old value to the new one if there is one. -/
  | assign (name : String) (operator : Option String) (e : Expression)
  deriving Inhabited

namespace Expression

inductive Token where
  | number (n : Int)
  | name (s : String)
  | sign (s : String)
  deriving DecidableEq, Repr

/-- The operators, the longer ones first. -/
def signs : List String :=
  ["<<=", ">>=", "<<", ">>", "<=", ">=", "==", "!=", "&&", "||", "+=", "-=", "*=", "/=", "%=", "&=",
    "|=", "^=", "+", "-", "*", "/", "%", "<", ">", "=", "!", "~", "&", "|", "^", "?", ":", "(", ")"]

/-- The number of a numeral in decimal, hexadecimal or octal notation. -/
def numeral (s : List Char) : Option Int :=
  let based (base : Nat) (digits : List Char) : Option Int :=
    (digits.foldlM (fun n c =>
      let d := if c.isDigit then c.toNat - '0'.toNat else c.toLower.toNat - 'a'.toNat + 10
      if d < base then some (n * base + d) else none) 0).map Int.ofNat
  match s with
  | '0' :: 'x' :: digits => based 16 digits
  | '0' :: 'X' :: digits => based 16 digits
  | '0' :: d :: digits => based 8 (d :: digits)
  | digits => based 10 digits

def tokens : (fuel : Nat) → List Char → Option (List Token)
  | 0, _ => none
  | _, [] => some []
  | fuel + 1, c :: rest =>
    if c = ' ' || c = '\t' || c = '\n' then tokens fuel rest
    else if c.isDigit then do
      let n ← numeral ((c :: rest).takeWhile Char.isAlphanum)
      return .number n :: (← tokens fuel ((c :: rest).dropWhile Char.isAlphanum))
    else if c.isAlpha || c = '_' then do
      let isPart (c : Char) : Bool := c.isAlphanum || c = '_'
      return .name (String.ofList ((c :: rest).takeWhile isPart))
        :: (← tokens fuel ((c :: rest).dropWhile isPart))
    else
      match signs.find? fun s => s.toList.isPrefixOf (c :: rest) with
      | some s => do return .sign s :: (← tokens fuel ((c :: rest).drop s.length))
      | none => none

/-- The binary operators by increasing strength. -/
def levels : List (List String) :=
  [["||"], ["&&"], ["|"], ["^"], ["&"], ["==", "!="], ["<", ">", "<=", ">="], ["<<", ">>"], ["+", "-"],
    ["*", "/", "%"]]

/-- The operators of assignments, with the ones that they apply to the old value. -/
def assignments : List (String × Option String) :=
  [("=", none), ("+=", some "+"), ("-=", some "-"), ("*=", some "*"), ("/=", some "/"),
    ("%=", some "%"), ("&=", some "&"), ("|=", some "|"), ("^=", some "^"), ("<<=", some "<<"),
    (">>=", some ">>")]

mutual

def whole : (fuel : Nat) → List Token → Option (Expression × List Token)
  | 0, _ => none
  | fuel + 1, ts =>
    match ts with
    | .name x :: .sign s :: rest =>
      match assignments.lookup s with
      | some operator => do
        let (e, rest) ← whole fuel rest
        return (.assign x operator e, rest)
      | none => choice fuel ts
    | _ => choice fuel ts

def choice : (fuel : Nat) → List Token → Option (Expression × List Token)
  | 0, _ => none
  | fuel + 1, ts => do
    let (c, ts) ← joined fuel levels ts
    match ts with
    | .sign "?" :: rest =>
      let (a, ts) ← whole fuel rest
      match ts with
      | .sign ":" :: rest =>
        let (b, ts) ← choice fuel rest
        return (.conditional c a b, ts)
      | _ => none
    | ts => return (c, ts)

/-- An expression of the operators of the levels, and what follows. -/
def joined : (fuel : Nat) → List (List String) → List Token → Option (Expression × List Token)
  | 0, _, _ => none
  | fuel + 1, [], ts => operand fuel ts
  | fuel + 1, level :: stronger, ts => do
    let (e, ts) ← joined fuel stronger ts
    further fuel level stronger e ts

/-- The operands of one level behind a first one. -/
def further : (fuel : Nat) → List String → List (List String) → Expression → List Token →
    Option (Expression × List Token)
  | 0, _, _, _, _ => none
  | fuel + 1, level, stronger, e, ts =>
    match ts with
    | .sign s :: rest =>
      if s ∈ level then do
        let (f, ts) ← joined fuel stronger rest
        further fuel level stronger (.binary s e f) ts
      else some (e, ts)
    | _ => some (e, ts)

def operand : (fuel : Nat) → List Token → Option (Expression × List Token)
  | 0, _ => none
  | fuel + 1, ts =>
    match ts with
    | .number n :: rest => some (.number n, rest)
    | .name x :: rest => some (.variable x, rest)
    | .sign "(" :: rest => do
      let (e, ts) ← whole fuel rest
      match ts with
      | .sign ")" :: rest => return (e, rest)
      | _ => none
    | .sign s :: rest =>
      if s ∈ ["-", "+", "!", "~"] then do
        let (e, ts) ← operand fuel rest
        return (.unary s e, ts)
      else none
    | [] => none

end

/-- The expression of a text; an empty one is zero. -/
def parse (s : List Char) : Option Expression := do
  match ← tokens (s.length + 1) s with
  | [] => return .number 0
  | ts =>
    match ← whole (16 * ts.length + 16) ts with
    | (e, []) => return e
    | _ => none

/-- The 64-bit integer with a sign that a number wraps to. -/
def wrap (n : Int) : Int := n.bmod UInt64.size

def truth (b : Bool) : Int := if b then 1 else 0

def bits (n : Int) : UInt64 := UInt64.ofInt n

def ofBits (w : UInt64) : Int := wrap w.toNat

/-- The value of a binary operator; there is none for a division by zero. -/
def apply (operator : String) (a b : Int) : Option Int :=
  match operator with
  | "+" => some (wrap (a + b))
  | "-" => some (wrap (a - b))
  | "*" => some (wrap (a * b))
  | "/" => if b = 0 then none else some (wrap (a.tdiv b))
  | "%" => if b = 0 then none else some (a.tmod b)
  | "==" => some (truth (a = b))
  | "!=" => some (truth (a ≠ b))
  | "<" => some (truth (a < b))
  | ">" => some (truth (a > b))
  | "<=" => some (truth (a ≤ b))
  | ">=" => some (truth (a ≥ b))
  | "<<" => some (ofBits (bits a <<< bits b))
  | ">>" => some (a >>> (bits b % 64).toNat)
  | "&" => some (ofBits (bits a &&& bits b))
  | "|" => some (ofBits (bits a ||| bits b))
  | "^" => some (ofBits (bits a ^^^ bits b))
  | _ => none

/-- The variables that an expression reads and sets. -/
abbrev Variables := List (String × String)

/-- The number that a variable holds; one that is missing or empty counts as zero. -/
def variableValue (vs : Variables) (name : String) : Option Int :=
  match ((vs.lookup name).getD "").toList with
  | [] => some 0
  | '-' :: digits => (numeral digits).map (- ·)
  | '+' :: digits => numeral digits
  | digits => numeral digits

/-- The value of an expression, and the variables after it. -/
def value : Expression → Variables → Option (Int × Variables)
  | .number n, vs => some (n, vs)
  | .variable x, vs => (variableValue vs x).map fun n => (n, vs)
  | .unary operator e, vs => do
    let (n, vs) ← value e vs
    match operator with
    | "-" => return (wrap (-n), vs)
    | "!" => return (truth (n = 0), vs)
    | "~" => return (-n - 1, vs)
    | _ => return (n, vs)
  | .binary operator a b, vs => do
    let (m, vs) ← value a vs
    if operator = "&&" then
      if m = 0 then return (0, vs)
      else
        let (n, vs) ← value b vs
        return (truth (n ≠ 0), vs)
    else if operator = "||" then
      if m ≠ 0 then return (1, vs)
      else
        let (n, vs) ← value b vs
        return (truth (n ≠ 0), vs)
    else
      let (n, vs) ← value b vs
      return (← apply operator m n, vs)
  | .conditional c a b, vs => do
    let (m, vs) ← value c vs
    if m ≠ 0 then value a vs else value b vs
  | .assign x operator e, vs => do
    let (n, vs) ← value e vs
    let result ← match operator with
      | some operator => do apply operator (← variableValue vs x) n
      | none => some n
    return (result, (x, toString result) :: vs.filter (·.1 != x))

end Expression

end CycleCost.Host.Script
