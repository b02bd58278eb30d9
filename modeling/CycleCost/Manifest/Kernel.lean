/-
Module: CycleCost.Manifest.Kernel
Purpose: The manifest of kernels that a script builds, and the repetition counts of each kernel.
Main exports: KernelTier, KernelSpec, KernelSpec.counts, KernelManifest, KernelManifest.ofText,
  KernelManifest.resolve, KernelManifest.select
-/
import CycleCost.Document.Toml.Reader
import CycleCost.Fault
import CycleCost.Path
import CycleCost.Regression.Series

namespace CycleCost

open Document

/-- How the work of one kernel call grows. A cubic kernel does far more work per call, so fewer calls span
    the same range of times. -/
inductive KernelTier where
  | cubic
  | quadratic
  deriving DecidableEq, Repr

namespace KernelTier

def all : List KernelTier := [cubic, quadratic]

def name : KernelTier → String
  | cubic => "cubic"
  | quadratic => "quadratic"

/-- The repetition counts of a kernel that brings none of its own. -/
def repetitionCounts : KernelTier → List UInt64
  | cubic => [10, 50, 100, 500, 1000, 5000]
  | quadratic => [100, 500, 1000, 5000, 10000, 50000]

def form : Form KernelTier := .named all name

end KernelTier

/-- A kernel of a manifest. -/
structure KernelSpec where
  name : String
  description : String
  tier : KernelTier
  /-- Counts that replace those of the tier. -/
  repetitionCounts : Option (List UInt64)
  expectedExit : Int
  deriving Repr

namespace KernelSpec

/-- The counts to measure, in ascending order and each once. -/
def counts (k : KernelSpec) : List UInt64 :=
  ascendingCounts (k.repetitionCounts.getD k.tier.repetitionCounts)

/-- Kernels; the description, the counts and the exit code may be left out. -/
def form : Form KernelSpec :=
  Fields.form <| (Fields.of KernelSpec.mk)
    |>.add (.required "name" .text (·.name))
    |>.add (.defaulted "description" .text "" (·.description))
    |>.add (.required "complexity" KernelTier.form (·.tier))
    |>.add (.defaulted "repetition_counts" (.optional (.list .word64)) none (·.repetitionCounts))
    |>.add (.defaulted "expected_exit_code" .exitCode 0 (·.expectedExit))

end KernelSpec

/-- A script with the kernels that it builds. -/
structure KernelManifest where
  /-- Run with the name of a kernel and a repetition count. -/
  script : String
  /-- Where the script runs and leaves its programs. -/
  directory : Option String
  /-- The name of a built program, with marks for the kernel's name and the count. -/
  binaryPattern : String
  kernels : List KernelSpec
  deriving Repr

namespace KernelManifest

/-- The names of built programs in a manifest that says nothing about them. -/
def defaultPattern : String := "\x7bname\x7d_native_r\x7breps\x7d"

def form : Form KernelManifest :=
  Fields.form <| (Fields.of KernelManifest.mk)
    |>.add (.required "build_script" .text (·.script))
    |>.add (.defaulted "build_dir" (.optional .text) none (·.directory))
    |>.add (.defaulted "binary_pattern" .text defaultPattern (·.binaryPattern))
    |>.add (.defaulted "kernel" (.list KernelSpec.form) [] (·.kernels))

def ofText (toml : Parser) (text : String) : Result KernelManifest :=
  match Toml.read toml form text with
  | none => .error (.badToml "not a manifest of kernels")
  | some m => .ok m

/-- The manifest with its script and directory taken below the directory of the manifest's own path. They are
    absolute afterwards, because the script runs in another directory. -/
def resolve (workingDirectory path : String) (m : KernelManifest) : KernelManifest :=
  let base := Path.join workingDirectory ((Path.parent path).getD "")
  { m with
    script := Path.join base m.script
    directory := some (match m.directory with
      | some d => Path.join base d
      | none => base) }

/-- The directory in which the script runs. -/
def workDirectory (m : KernelManifest) : String := m.directory.getD "."

def find (m : KernelManifest) (name : String) : Result KernelSpec :=
  match m.kernels.find? (·.name == name) with
  | some k => .ok k
  | none => .error (.unknownTemplate name)

/-- The kernels of the names, in their order; no names mean all kernels. -/
def select (m : KernelManifest) (names : List String) : Result (List KernelSpec) :=
  if names.isEmpty then .ok m.kernels else names.mapM m.find

end KernelManifest

end CycleCost
