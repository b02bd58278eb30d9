/-
Module: CycleCost.Manifest.Fixed
Purpose: The manifest of fixed-size workloads: programs that cannot be run at several sizes and whose cost is
  therefore supplied.
Main exports: FixedWorkload, FixedManifest, FixedManifest.validate, FixedManifest.ofText,
  FixedManifest.resolve
-/
import CycleCost.Document.Toml.Reader
import CycleCost.Fault
import CycleCost.Path

namespace CycleCost

open Document

/-- A program of fixed size with its supplied cost. -/
structure FixedWorkload (α : Type) where
  name : String
  description : String
  instructionsPerIteration : UInt64
  executable : String
  expectedExit : Int
  expectedCpi : α

/-- The fixed-size workloads of a run. -/
structure FixedManifest (α : Type) where
  workloads : List (FixedWorkload α)

/-- Fixed-size workloads; the description and the exit code may be left out. -/
def FixedWorkload.form : Form (FixedWorkload Float) :=
  Fields.form <| (Fields.of FixedWorkload.mk)
    |>.add (.required "name" .text (·.name))
    |>.add (.defaulted "description" .text "" (·.description))
    |>.add (.required "instructions_per_iteration" .word64 (·.instructionsPerIteration))
    |>.add (.required "executable" .text (·.executable))
    |>.add (.defaulted "expected_exit_code" .exitCode 0 (·.expectedExit))
    |>.add (.required "expected_cpi" .real (·.expectedCpi))

namespace FixedManifest

def form : Form (FixedManifest Float) :=
  Fields.form <| (Fields.of FixedManifest.mk)
    |>.add (.defaulted "workload" (.list FixedWorkload.form) [] (·.workloads))

variable {α : Type}

/-- A supplied cost has to be finite and above zero. -/
def checkWorkload [Scalar α] (w : FixedWorkload α) : Result Unit :=
  if Scalar.finitePositive w.expectedCpi then .ok ()
  else .error (.badMetric s!"expected_cpi of {w.name}" (Scalar.shown w.expectedCpi))

/-- The first workload without a usable cost makes the whole manifest unusable. -/
def validate [Scalar α] (m : FixedManifest α) : Result (FixedManifest α) := do
  m.workloads.forM checkWorkload
  return m

def ofText (toml : Parser) (text : String) : Result (FixedManifest Float) :=
  match Toml.read toml form text with
  | none => .error (.badToml "not a manifest of fixed-size workloads")
  | some m => m.validate

/-- A workload whose relative executable is taken below the directory `base`. -/
def placeBelow (base : String) (w : FixedWorkload α) : FixedWorkload α :=
  if Path.isAbsolute w.executable then w else { w with executable := Path.join base w.executable }

/-- The manifest with its relative executables taken below the directory of the manifest's own path. -/
def resolve (path : String) (m : FixedManifest α) : FixedManifest α :=
  match Path.parent path with
  | some base => ⟨m.workloads.map (placeBelow base)⟩
  | none => m

end FixedManifest

end CycleCost
