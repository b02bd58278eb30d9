/-
Module: CycleCost.Calibration.Suite
Purpose: Several benchmarks one after another. A benchmark that fails becomes an entry of its own and never
  ends the run.
Main exports: SuiteOutcome, SuiteOutcome.extend, SuiteOutcome.tally, runSuite, calibrateTemplates,
  calibrateKernels, estimateFixed
-/
import CycleCost.Calibration.Benchmark
import CycleCost.Workload.Registry

namespace CycleCost

/-- The records and failures of a run, each in the order of the requests. -/
structure SuiteOutcome (α : Type) where
  records : List (BenchmarkRecord α)
  failures : List BenchmarkFailure

namespace SuiteOutcome

variable {α : Type}

/-- Nothing yet. -/
def empty : SuiteOutcome α := ⟨[], []⟩

/-- One more request. -/
def add (o : SuiteOutcome α) (name : String) : Result (BenchmarkRecord α) → SuiteOutcome α
  | .ok record => { o with records := o.records ++ [record] }
  | .error fault => { o with failures := o.failures ++ [⟨name, fault.message⟩] }

/-- Two runs, one behind the other. -/
def extend (o other : SuiteOutcome α) : SuiteOutcome α :=
  ⟨o.records ++ other.records, o.failures ++ other.failures⟩

/-- How the requests came out. -/
def tally (o : SuiteOutcome α) : Tally := Tally.of o.records o.failures

end SuiteOutcome

variable {σ α : Type}

/-- A benchmark under the name it was asked for. -/
structure Request (σ α : Type) where
  name : String
  cost : Act σ (BenchmarkRecord α)

/-- The requests in order. -/
def runSuite (requests : List (Request σ α)) : StateM σ (SuiteOutcome α) :=
  requests.foldlM (fun o r => o.add r.name <$> r.cost.run) SuiteOutcome.empty

variable [Scalar α]

/-- The requests for templates. No names ask for every enabled template; an unknown name fails alone. -/
def templateRequests (m : Machine σ) (s : Settings α) (registry : Registry) (names : List String) :
    List (Request σ α) :=
  if names.isEmpty then registry.templates.map fun t => ⟨t.name, t.calibrate m s⟩
  else names.map fun name =>
    ⟨name, do
      let t ← Act.ofResult (registry.lookup name)
      t.calibrate m s⟩

def calibrateTemplates (m : Machine σ) (s : Settings α) (registry : Registry) (names : List String) :
    StateM σ (SuiteOutcome α) :=
  runSuite (templateRequests m s registry names)

def calibrateKernels (m : Machine σ) (s : Settings α) (kernels : List KernelSpec) :
    StateM σ (SuiteOutcome α) :=
  runSuite (kernels.map fun k => ⟨k.name, k.calibrate m s⟩)

/-- The costs of fixed-size programs. -/
def estimateFixed (m : Machine σ) (s : Settings α) (manifest : FixedManifest α) :
    StateM σ (SuiteOutcome α) :=
  runSuite (manifest.workloads.map fun w => ⟨w.name, w.estimate m s⟩)

end CycleCost
