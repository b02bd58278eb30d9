/-
Module: CycleCost.Workload.Registry
Purpose: The templates that a run may use, looked up by name.
Main exports: Registry, Registry.standard, Registry.select, Registry.lookup, Registry.generate
-/
import CycleCost.Workload.Program

namespace CycleCost

/-- The templates enabled for a run, in order. -/
structure Registry where
  templates : List Template
  deriving DecidableEq, Repr

namespace Registry

/-- Every template. -/
def standard : Registry := ⟨Template.all⟩

/-- The templates of the names, each once, at the place of its first mention. -/
def resolve : List String → List Template → Result (List Template)
  | [], chosen => .ok chosen
  | name :: rest, chosen => do
    let t ← Template.named name
    resolve rest (if t ∈ chosen then chosen else chosen ++ [t])

/-- The named templates only; no names mean all of them. -/
def select (names : List String) : Result Registry :=
  if names.isEmpty then .ok standard else Registry.mk <$> resolve names []

/-- The enabled template of a name. -/
def lookup (r : Registry) (name : String) : Result Template := do
  let t ← Template.named name
  if t ∈ r.templates then return t else throw (.unknownTemplate name)

/-- The source of the named template at a repetition count. -/
def generate (r : Registry) (name : String) (count : UInt64) (abi : Abi) : Result String := do
  let t ← r.lookup name
  let p ← Program.bind t count abi
  p.source

end Registry

end CycleCost
