/-
Module: CycleCost.Settings
Purpose: Everything that a calibration run is given: the profile with its run counts and sizes, the choices
  that override it, and the hash function that names sources.
Main exports: Profile, Settings, Settings.ofProfile, Settings.withCounts, Settings.fixedHarness
-/
import CycleCost.Digest
import CycleCost.Measurement
import CycleCost.Regression.Backend
import CycleCost.Workload.Abi

namespace CycleCost

/-- How much effort a run spends. -/
inductive Profile where
  | quick
  | full
  deriving DecidableEq, Repr

namespace Profile

def all : List Profile := [quick, full]

def name : Profile → String
  | quick => "quick"
  | full => "full"

/-- Discarded runs before each measurement. -/
def warmups : Profile → Nat
  | quick => 2
  | full => 3

/-- Measured runs per size. -/
def runs : Profile → Nat
  | quick => 5
  | full => 15

/-- The smallest repetition count of a series. -/
def baseCount : Profile → UInt64
  | quick => 100000
  | full => 1000000

/-- The repetition counts of a series: six of them, each twice the one before. -/
def repetitionCounts (p : Profile) : List UInt64 :=
  ([0, 1, 2, 3, 4, 5] : List UInt64).map fun doublings => p.baseCount <<< doublings

/-- Measured runs for the coarse timing of a fixed-size workload. -/
def fixedRuns : Profile → Nat
  | quick => 1000
  | full => 10000

/-- The limit of a single run. -/
def runTimeout : Profile → Duration
  | quick => .ofSeconds 30
  | full => .ofSeconds 120

end Profile

/-- What a calibration run is given. -/
structure Settings (α : Type) where
  profile : Profile
  harness : Harness α
  repetitionCounts : List UInt64
  /-- The fewest different sizes that a benchmark has to have before it is fitted. -/
  minPoints : Nat
  frequencyGhz : α
  backend : Regression.Backend
  abi : Abi
  buildTimeout : Duration
  /-- Measured runs for the coarse timing of a fixed-size workload. -/
  fixedRuns : Nat
  seed : UInt64
  /-- What the sources of generated programs are hashed with. -/
  hash : Digest.Hash

namespace Settings

variable {α : Type} [Scalar α]

/-- The share of the timings that is dropped at each end: one fifth. -/
def defaultTrimFraction : α := Scalar.ofNat 2 / Scalar.ofNat 10

/-- The clock in which latencies are expressed as cycles: 3.5 GHz. -/
def defaultFrequencyGhz : α := Scalar.ofNat 35 / Scalar.ofNat 10

/-- The settings of a profile on a Linux host. -/
def ofProfile (p : Profile) : Settings α where
  profile := p
  harness := ⟨p.runs, p.warmups, defaultTrimFraction, p.runTimeout⟩
  repetitionCounts := p.repetitionCounts
  minPoints := 3
  frequencyGhz := defaultFrequencyGhz
  backend := .closedForm
  abi := .linux
  buildTimeout := .ofSeconds 60
  fixedRuns := p.fixedRuns
  seed := 0
  hash := Digest.sha256

/-- The settings with other repetition counts, in ascending order and each once. -/
def withCounts (s : Settings α) (counts : List UInt64) : Settings α :=
  { s with repetitionCounts := ascendingCounts counts }

/-- How a fixed-size workload is timed. -/
def fixedHarness (s : Settings α) : Harness α := { s.harness with runs := s.fixedRuns }

end Settings

end CycleCost
