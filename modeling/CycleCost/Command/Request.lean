/-
Module: CycleCost.Command.Request
Purpose: What a command line asks for. Options that hold for every command may stand in front of the command or
  behind it; behind it they count more.
Main exports: Request, Request.reads, Invocation, Invocation.read
-/
import CycleCost.Command.Switch
import CycleCost.Decimal.Numeral
import CycleCost.Settings
import CycleCost.Text

namespace CycleCost.Command

structure TemplateRequest where
  /-- The templates by name; none stand for all. -/
  benchmarks : List String
  runs : Option UInt32
  warmups : Option UInt32
  /-- Repetition counts in the place of those of the profile; none leave them. -/
  counts : List UInt64
  backend : Regression.Backend
  abi : Option Abi
  /-- Fixed-size workloads to add. -/
  manifest : Option String
  temporaryRoot : Option String

structure KernelRequest where
  manifest : String
  /-- The kernels by name; none stand for all. -/
  kernels : List String
  runs : Option UInt32
  warmups : Option UInt32
  backend : Regression.Backend
  /-- A report to fold the results into. -/
  mergeInto : Option String

/-- What is asked for. -/
inductive Request where
  /-- The templates with their sizes. -/
  | templates
  /-- The source of one template. -/
  | generate (benchmark : String) (count : UInt64) (abi : Option Abi)
  | calibrate (asked : TemplateRequest)
  | calibrateKernels (asked : KernelRequest)
  /-- Records of fixed-size workloads. -/
  | estimate (manifest : String)
  /-- A simulator's errors against a report. -/
  | compare (calibration simulator : String)
  /-- Both regression backends on a made-up series. -/
  | selfCheck
  /-- How the program is used. -/
  | help

def Request.reads : Request → List String
  | .calibrate asked => asked.manifest.toList
  | .calibrateKernels asked => asked.manifest :: asked.mergeInto.toList
  | .estimate manifest => [manifest]
  | .compare calibration simulator => [calibration, simulator]
  | .templates | .generate _ _ _ | .selfCheck | .help => []

/-- A request with what holds for every command. -/
structure Invocation where
  profile : Profile
  seed : UInt64
  frequencyGhz : Float
  /-- Where the result is written instead of being printed. -/
  out : Option String
  request : Request

/-! ### Values -/

def readText (s : String) : Option String := some s

def readPath (s : String) : Option String := if s.isEmpty then none else some s

/-- A count of 64 bits; a plus sign may stand in front. -/
def readWord64 (s : String) : Option UInt64 :=
  (Decimal.parseUnsigned UInt64.size s.toList).map UInt64.ofNat

/-- A count of 32 bits. It is read as a number with a sign, so that minus zero is zero. -/
def readWord32 (s : String) : Option UInt32 :=
  match s.toList with
  | '-' :: '+' :: _ => none
  | '-' :: digits => (Decimal.parseUnsigned 1 digits).map UInt32.ofNat
  | digits => (Decimal.parseUnsigned UInt32.size digits).map UInt32.ofNat

def readFloat (s : String) : Option Float := Decimal.parseFloatText s.toList

def readCounts (s : String) : Option (List UInt64) :=
  (Text.split ',' s.toList).mapM fun part => readWord64 (String.ofList part)

/-- A value of an enumeration by its exact name. -/
def readNamed {β : Type} (all : List β) (name : β → String) (s : String) : Option β :=
  all.find? (name · == s)

/-! ### Uses of options -/

def valueOf {β : Type} (read : String → Option β) (u : Use) : Except Misuse β :=
  match read u.value with
  | some v => .ok v
  | none => .error (.badValue u.name u.value)

def allOf {β : Type} (uses : List Use) (name : String) (read : String → Option β) :
    Except Misuse (List β) :=
  (uses.filter (·.name == name)).mapM (valueOf read)

/-- The value of an option that may be left out. -/
def oneOf {β : Type} (uses : List Use) (name : String) (read : String → Option β) :
    Except Misuse (Option β) := do
  return (← allOf uses name read).head?

def neededOf {β : Type} (uses : List Use) (name : String) (read : String → Option β) :
    Except Misuse β := do
  match ← oneOf uses name read with
  | some v => return v
  | none => throw (.missingOption name)

/-! ### What holds for every command -/

/-- What holds for every command, as far as it is said. -/
structure Common where
  profile : Option Profile
  seed : Option UInt64
  frequencyGhz : Option Float
  out : Option String

namespace Common

/-- The options that hold for every command. There is no more to tell when a run is asked to be talkative. -/
def switches : List Switch :=
  [⟨"profile", none, .single⟩, ⟨"seed", none, .single⟩, ⟨"frequency-ghz", none, .single⟩,
    ⟨"out", none, .single⟩, ⟨"verbose", some 'v', .mark⟩, ⟨"help", some 'h', .final⟩]

def read (uses : List Use) : Except Misuse Common := do
  return {
    profile := ← oneOf uses "profile" (readNamed Profile.all Profile.name)
    seed := ← oneOf uses "seed" readWord64
    frequencyGhz := ← oneOf uses "frequency-ghz" readFloat
    out := ← oneOf uses "out" readPath }

/-- What is said behind a command counts more than what is said in front of it. -/
def overriding (inner outer : Common) : Common where
  profile := inner.profile.or outer.profile
  seed := inner.seed.or outer.seed
  frequencyGhz := inner.frequencyGhz.or outer.frequencyGhz
  out := inner.out.or outer.out

/-- A request with what is said, and what holds when nothing is said. -/
def invocation (c : Common) (request : Request) : Invocation where
  profile := c.profile.getD .quick
  seed := c.seed.getD 0
  frequencyGhz := c.frequencyGhz.getD Settings.defaultFrequencyGhz
  out := c.out
  request

end Common

/-! ### Commands -/

/-- A command: its name, its options, and the request that their uses make. -/
structure Grammar where
  name : String
  switches : List Switch
  read : List Use → Except Misuse Request

/-- A regression backend by name; the closed form when nothing is said. -/
def readBackend (uses : List Use) : Except Misuse Regression.Backend := do
  let chosen ← oneOf uses "backend" (readNamed Regression.Backend.all Regression.Backend.name)
  return chosen.getD .closedForm

/-- The operating-system interface by name, if one is asked for. -/
def readAbi (uses : List Use) : Except Misuse (Option Abi) := oneOf uses "abi" (readNamed Abi.all Abi.name)

/-- The repetitions of a generated program when nothing is said. -/
def defaultCount : UInt64 := 1000000

def grammars : List Grammar :=
  [{ name := "templates", switches := [], read := fun _ => .ok .templates },
   { name := "generate"
     switches := [⟨"benchmark", some 'b', .single⟩, ⟨"count", some 'n', .single⟩, ⟨"abi", none, .single⟩]
     read := fun uses => do
       let benchmark ← neededOf uses "benchmark" readText
       let count ← oneOf uses "count" readWord64
       return .generate benchmark (count.getD defaultCount) (← readAbi uses) },
   { name := "calibrate"
     switches := [⟨"benchmark", some 'b', .many⟩, ⟨"runs", none, .single⟩, ⟨"warmup", none, .single⟩,
       ⟨"counts", none, .many⟩, ⟨"backend", none, .single⟩, ⟨"abi", none, .single⟩,
       ⟨"manifest", none, .single⟩, ⟨"temp-dir", none, .single⟩]
     read := fun uses => do
       return .calibrate {
         benchmarks := ← allOf uses "benchmark" readText
         runs := ← oneOf uses "runs" readWord32
         warmups := ← oneOf uses "warmup" readWord32
         counts := (← allOf uses "counts" readCounts).flatten
         backend := ← readBackend uses
         abi := ← readAbi uses
         manifest := ← oneOf uses "manifest" readPath
         temporaryRoot := ← oneOf uses "temp-dir" readPath } },
   { name := "calibrate-kernels"
     switches := [⟨"manifest", none, .single⟩, ⟨"kernel", some 'k', .many⟩, ⟨"runs", none, .single⟩,
       ⟨"warmup", none, .single⟩, ⟨"backend", none, .single⟩, ⟨"merge-into", none, .single⟩]
     read := fun uses => do
       return .calibrateKernels {
         manifest := ← neededOf uses "manifest" readPath
         kernels := ← allOf uses "kernel" readText
         runs := ← oneOf uses "runs" readWord32
         warmups := ← oneOf uses "warmup" readWord32
         backend := ← readBackend uses
         mergeInto := ← oneOf uses "merge-into" readPath } },
   { name := "estimate"
     switches := [⟨"manifest", none, .single⟩]
     read := fun uses => do return .estimate (← neededOf uses "manifest" readPath) },
   { name := "compare"
     switches := [⟨"calibration", none, .single⟩, ⟨"simulator", none, .single⟩]
     read := fun uses => do
       return .compare (← neededOf uses "calibration" readPath) (← neededOf uses "simulator" readPath) },
   { name := "self-check", switches := [], read := fun _ => .ok .selfCheck }]

def asksHelp (uses : List Use) : Bool := uses.any (·.name == "help")

/-- Help is on the program, or on one of its commands. -/
def helpTopic : List String → Except Misuse Unit
  | [] => .ok ()
  | topic :: more =>
    if topic ≠ "help" ∧ grammars.all (·.name ≠ topic) then .error (.unexpectedWord topic)
    else match more with
      | [] => .ok ()
      | word :: _ => .error (.unexpectedWord word)

/-- What the word that has to be a command asks for, with the words behind it. -/
def readCommand (outer : Common) (name : String) (words : List String) : Except Misuse Invocation :=
  match grammars.find? (·.name == name) with
  | none =>
    if name = "help" then do
      helpTopic words
      return outer.invocation .help
    else .error (.unexpectedWord name)
  | some g => do
    let scanned ← scan (Common.switches ++ g.switches) none words []
    let inner ← Common.read scanned.uses
    if asksHelp scanned.uses then return outer.invocation .help
    if let some (word, _) := scanned.rest then throw (.unexpectedWord word)
    return (inner.overriding outer).invocation (← g.read scanned.uses)

namespace Invocation

/-- What a command line asks for. -/
def read (words : List String) : Except Misuse Invocation := do
  let scanned ← scan Common.switches none words []
  let outer ← Common.read scanned.uses
  if asksHelp scanned.uses then return outer.invocation .help
  match scanned.rest with
  | none => throw .missingCommand
  | some (name, rest) => readCommand outer name rest

end Invocation

end CycleCost.Command
