/-
Module: CycleCost.Proofs.Measurement.Sample
Purpose: What the reduction of timings does to samples that all change in the same way. A change that keeps
  the order of the samples keeps which of them are averaged; a constant that is added to all of them is added
  to their mean and leaves their spread alone.
Main exports: Sample.sorted_map, Sample.kept_map, Sample.kept_ne_nil, Sample.variance_map_add,
  Sample.summarize_map_add
-/
import Mathlib
import CycleCost.Proofs.Arithmetic.Exact
import CycleCost.Sample

namespace CycleCost.Sample

/-! ### Changes that keep the order -/

section

variable {α : Type} [Scalar α] {f : α → α}

/-- Samples may be sorted before or after a change that keeps their order. -/
theorem sorted_map (keeps : ∀ x y, Scalar.totalLe (f x) (f y) = Scalar.totalLe x y) (samples : List α) :
    sorted (samples.map f) = (sorted samples).map f := by
  have ordered : ∀ x ∈ samples, ∀ y ∈ samples, Scalar.totalLe x y = Scalar.totalLe (f x) (f y) := by
    intro x _ y _
    exact (keeps x y).symm
  exact (List.map_mergeSort ordered).symm

/-- A change that keeps the order keeps which samples are averaged. -/
theorem kept_map (keeps : ∀ x y, Scalar.totalLe (f x) (f y) = Scalar.totalLe x y) (samples : List α)
    (fraction : α) : kept (samples.map f) fraction = (kept samples fraction).map f := by
  simp only [kept, sorted_map keeps, List.length_map]
  split
  · rw [List.map_take, List.map_drop]
  · rfl

/-- Something is kept of samples that are not empty. -/
theorem kept_ne_nil {samples : List α} (present : samples ≠ []) (fraction : α) :
    kept samples fraction ≠ [] := by
  have sortedPresent : sorted samples ≠ [] := by
    rw [← List.length_pos_iff, sorted, List.length_mergeSort]
    exact List.length_pos_iff.2 present
  rw [kept]
  split
  next enough =>
    rw [← List.length_pos_iff, List.length_take, List.length_drop]
    rw [minimumKept] at enough
    omega
  next => exact sortedPresent

end

/-! ### A constant added to all samples -/

variable {K : Type} [ScalarField K]

/-- A summary of samples that all took `d` longer. -/
def Summary.delayed (d : K) (s : Summary K) : Summary K := { s with mean := s.mean + d }

/-- A common shift of samples and centre leaves the variance as it is. -/
theorem variance_map_add (center d : K) (samples : List K) :
    variance (center + d) (samples.map (· + d)) = variance center samples := by
  have distance : ((fun v => Scalar.square (v - (center + d))) ∘ (· + d)) =
      fun v : K => Scalar.square (v - center) := by
    funext v
    exact congrArg Scalar.square (add_sub_add_right_eq_sub v center d)
  rw [variance, variance, List.map_map, distance]

variable [LinearOrder K] [ExactScalar K]

/-- Samples that all took `d` longer have a mean that is `d` larger, and the same deviation. -/
theorem summarize_map_add (d : K) (samples : List K) (fraction : K) :
    summarize (samples.map (· + d)) fraction = (summarize samples fraction).map (Summary.delayed d) := by
  have keeps : ∀ x y : K, Scalar.totalLe (x + d) (y + d) = Scalar.totalLe x y := by
    intro x y
    rw [ExactScalar.totalLe_eq, ExactScalar.totalLe_eq, decide_eq_decide]
    exact add_le_add_iff_right d
  rw [summarize, summarize, List.isEmpty_map]
  by_cases empty : samples.isEmpty
  · rw [if_pos empty, if_pos empty]
    rfl
  · have present : samples ≠ [] := mt List.isEmpty_iff.2 empty
    have mean := Scalar.mean_map_add (kept_ne_nil present fraction) d
    rw [if_neg empty, if_neg empty]
    dsimp only
    rw [kept_map keeps, mean, variance_map_add, List.length_map, List.length_map]
    rfl

end CycleCost.Sample
