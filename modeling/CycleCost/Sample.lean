/-
Module: CycleCost.Sample
Purpose: The reduction of repeated timings to one figure: sort, drop the same share at both ends, and average
  the rest. When too few samples would remain, every sample counts.
Main exports: Sample.Summary, Sample.cut, Sample.kept, Sample.variance, Sample.summarize
-/
import CycleCost.Fault

namespace CycleCost.Sample

variable {α : Type} [Scalar α]

/-- A central value with the spread of the samples it was taken over. -/
structure Summary (α : Type) where
  mean : α
  deviation : α
  /-- Samples that were averaged. -/
  used : Nat
  total : Nat

/-- The fewest samples that trimming may leave. -/
def minimumKept : Nat := 3

/-- The samples in ascending total order. -/
def sorted (samples : List α) : List α := samples.mergeSort Scalar.totalLe

/-- The share to drop at each end: at least nothing and at most one half; a share that is no finite number
    drops nothing. -/
def share (fraction : α) : α :=
  if Scalar.finite fraction then
    Scalar.clamp Scalar.zero (Scalar.one / Scalar.ofNat 2) fraction
  else Scalar.zero

/-- The number of samples to drop at each end. -/
def cut (count : Nat) (fraction : α) : Nat := Scalar.wholePart (Scalar.ofNat count * share fraction)

/-- The samples that are averaged, in ascending order. -/
def kept (samples : List α) (fraction : α) : List α :=
  let ascending := sorted samples
  let n := ascending.length
  let c := cut n fraction
  if minimumKept ≤ n - 2 * c then (ascending.drop c).take (n - 2 * c) else ascending

/-- The mean squared distance from `center`. -/
def variance (center : α) (samples : List α) : α :=
  Scalar.mean (samples.map fun v => Scalar.square (v - center))

/-- The trimmed mean, and the population deviation of the same samples. -/
def summarize (samples : List α) (fraction : α) : Result (Summary α) :=
  if samples.isEmpty then .error .noSamples
  else
    let averaged := kept samples fraction
    let mean := Scalar.mean averaged
    .ok ⟨mean, Scalar.root (variance mean averaged), averaged.length, samples.length⟩

end CycleCost.Sample
