/-
Module: CycleCost.Calibration.Benchmark
Purpose: The cost of one benchmark on a machine: of a template by building it at several sizes, of a kernel by
  counting its instructions, and of a fixed-size program by its supplied cost.
Main exports: Template.trySize, Template.calibrate, KernelSpec.trySize, KernelSpec.calibrate,
  FixedWorkload.estimate
-/
import CycleCost.Calibration.Survey
import CycleCost.Manifest.Fixed
import CycleCost.Manifest.Kernel
import CycleCost.Workload.Program

namespace CycleCost

variable {σ α : Type} [Scalar α]

/-- Generated programs end with this exit code. -/
def generatedExit : Int := 0

/-- How a program is timed that was built for some amount of work. -/
def timeProgram (m : Machine σ) (h : Harness α) (program : String) (expectedExit : Int)
    (work : UInt64) : Act σ (Observation α) :=
  measure (m.run program h.timeout) (some expectedExit) work h

namespace Template

/-- One built size: it is timed and then given back, and a failed timing only drops the size. -/
def timeBuilt (m : Machine σ) (s : Settings α) (count : UInt64) (digest : String)
    (program : String) (work : UInt64) : Act σ (Outcome α) := do
  let timing ← (timeProgram m s.harness program generatedExit work).observe
  monadLift (m.release program)
  match timing with
  | .ok o => return .measured count (some digest) o
  | .error fault => return .skipped count fault

/-- One size of a template. A count that no program can have and a build that takes too long drop the size;
    any other failed build ends the benchmark. -/
def trySize (m : Machine σ) (s : Settings α) (t : Template) (count : UInt64) :
    Act σ (Outcome α) := do
  match Program.bind t count s.abi with
  | .error fault => return .skipped count fault
  | .ok p =>
    let work ← Act.ofResult p.totalWork
    let source ← Act.ofResult p.source
    match ← (m.build source).observe with
    | .ok program => timeBuilt m s count (Digest.hex s.hash source) program work
    | .error fault => if fault.isTimeout then return .skipped count fault else throw fault

/-- The cost of a template, from every configured size in ascending order. -/
def calibrate (m : Machine σ) (s : Settings α) (t : Template) : Act σ (BenchmarkRecord α) := do
  let outcomes ← (ascendingCounts s.repetitionCounts).mapM (t.trySize m s)
  Act.ofResult
    ((Survey.ofOutcomes outcomes).record s ⟨t.name, t.description⟩ t.instructionsPerIteration)

end Template

/-- The instructions of one call of a kernel, from its largest measured size. -/
def instructionsPerCall (points : List (DataPoint α)) : UInt64 :=
  match points.getLast? with
  | some p => p.instructions / max p.repetitions 1
  | none => 0

namespace KernelSpec

def timeSize (m : Machine σ) (s : Settings α) (k : KernelSpec) (count : UInt64) :
    Act σ (Observation α) := do
  let program ← m.buildKernel k.name count
  let instructions ← m.count program
  timeProgram m s.harness program k.expectedExit instructions

/-- One size of a kernel; any failure only drops it. -/
def trySize (m : Machine σ) (s : Settings α) (k : KernelSpec) (count : UInt64) :
    Act σ (Outcome α) := do
  match ← (k.timeSize m s count).observe with
  | .ok o => return .measured count none o
  | .error fault => return .skipped count fault

/-- The cost of a kernel, from each of its sizes in ascending order. -/
def calibrate (m : Machine σ) (s : Settings α) (k : KernelSpec) : Act σ (BenchmarkRecord α) := do
  let outcomes ← k.counts.mapM (k.trySize m s)
  let survey := Survey.ofOutcomes outcomes
  Act.ofResult (survey.record s ⟨k.name, k.description⟩ (instructionsPerCall survey.dataPoints))

end KernelSpec

namespace FixedWorkload

/-- The record of a supplied cost beside a timing. -/
def record (s : Settings α) (w : FixedWorkload α) (timing : Option (CoarseTiming α)) :
    Result (BenchmarkRecord α) := do
  let estimate ← Estimate.analytical w.expectedCpi s.frequencyGhz timing
  return {
    name := w.name
    description := w.description
    instructionsPerIteration := w.instructionsPerIteration
    latencyNs := estimate.metric.latencyNs
    overheadMs := none
    cpi := estimate.metric.cycles
    ipc := estimate.metric.throughput
    rSquared := suppliedRSquared
    frequencyGhz := estimate.metric.frequencyGhz
    method := estimate.metric.method
    calibrated := false
    empiricalCpi := estimate.crossCheck.map (·.empiricalCpi)
    dataPoints := []
    skippedPoints := [] }

/-- The supplied cost of a fixed-size program. Its timing is only compared with it, so a failed one is no
    failure. -/
def estimate (m : Machine σ) (s : Settings α) (w : FixedWorkload α) : Act σ (BenchmarkRecord α) := do
  let timing ← (timeProgram m s.fixedHarness w.executable w.expectedExit
    w.instructionsPerIteration).observe
  let coarse := timing.toOption.map fun o => CoarseTiming.mk o.timeMs w.instructionsPerIteration
  Act.ofResult (w.record s coarse)

end FixedWorkload

end CycleCost
