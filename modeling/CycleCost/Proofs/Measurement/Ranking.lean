/-
Module: CycleCost.Proofs.Measurement.Ranking
Purpose: Samples in ascending order, in every arithmetic whose total order compares any two values and tells
  them apart. There the ascending list is the only arrangement of the samples that ascends, so it is known as
  soon as one is written down, and which samples are kept is known from any split into low, middle and high.
Main exports: Ranked, Sample.pairwise_sorted, Sample.sorted_eq, Sample.sorted_eq_of_perm, Sample.sorted_append,
  Sample.kept_eq_sorted
-/
import CycleCost.Proofs.Arithmetic.Binary64
import CycleCost.Proofs.Arithmetic.Exact
import CycleCost.Sample

namespace CycleCost

/-- An arithmetic whose total order is one. -/
class Ranked (α : Type) [Scalar α] : Prop where
  totalLe_trans {x y z : α} :
    Scalar.totalLe x y = true → Scalar.totalLe y z = true → Scalar.totalLe x z = true
  totalLe_total (x y : α) : (Scalar.totalLe x y || Scalar.totalLe y x) = true
  totalLe_antisymm {x y : α} : Scalar.totalLe x y = true → Scalar.totalLe y x = true → x = y

instance {α : Type} [Scalar α] [Binary64 α] : Ranked α where
  totalLe_trans := Binary64.totalLe_trans
  totalLe_total := Binary64.totalLe_total
  totalLe_antisymm := Binary64.totalLe_antisymm

/-- Without rounding the total order is the one of the numbers. -/
theorem ExactScalar.totalLe_iff {K : Type} [LinearOrder K] [ScalarField K] [ExactScalar K] {x y : K} :
    Scalar.totalLe x y = true ↔ x ≤ y := by
  rw [ExactScalar.totalLe_eq, decide_eq_true_eq]

instance {K : Type} [LinearOrder K] [ScalarField K] [ExactScalar K] : Ranked K where
  totalLe_trans first second := by
    rw [ExactScalar.totalLe_iff] at first second ⊢
    exact first.trans second
  totalLe_total x y := by
    rw [Bool.or_eq_true, ExactScalar.totalLe_iff, ExactScalar.totalLe_iff]
    exact le_total x y
  totalLe_antisymm first second := by
    rw [ExactScalar.totalLe_iff] at first second
    exact le_antisymm first second

namespace Sample

section

variable {α : Type} [Scalar α]

theorem sorted_perm (samples : List α) : (sorted samples).Perm samples := List.mergeSort_perm _ _

theorem length_sorted (samples : List α) : (sorted samples).length = samples.length := List.length_mergeSort _

end

variable {α : Type} [Scalar α] [Ranked α] {samples low window high : List α} {fraction : α}

/-- The sorted samples ascend in the total order of the numbers. -/
theorem pairwise_sorted (samples : List α) : (sorted samples).Pairwise (Scalar.totalLe · · = true) := by
  have trans (x y z : α) (first : Scalar.totalLe x y = true) (second : Scalar.totalLe y z = true) :
      Scalar.totalLe x z = true := Ranked.totalLe_trans first second
  exact List.pairwise_mergeSort trans Ranked.totalLe_total samples

/-- An ascending arrangement of the samples is the ascending list. -/
theorem sorted_eq {ascending : List α} (perm : ascending.Perm samples)
    (ordered : ascending.Pairwise (Scalar.totalLe · · = true)) : sorted samples = ascending := by
  have antisymm : ∀ x y, x ∈ sorted samples → y ∈ ascending →
      Scalar.totalLe x y = true → Scalar.totalLe y x = true → x = y := by
    intro x y _ _ first second
    exact Ranked.totalLe_antisymm first second
  have same : (sorted samples).Perm ascending := (sorted_perm samples).trans perm.symm
  exact same.eq_of_pairwise antisymm (pairwise_sorted samples) ordered

/-- The ascending list does not depend on the order of the samples. -/
theorem sorted_eq_of_perm {others : List α} (perm : others.Perm samples) : sorted others = sorted samples :=
  sorted_eq ((sorted_perm samples).trans perm.symm) (pairwise_sorted samples)

/-- Samples below others are sorted apart from them. -/
theorem sorted_append (below : ∀ x ∈ low, ∀ y ∈ high, Scalar.totalLe x y = true) :
    sorted (low ++ high) = sorted low ++ sorted high := by
  apply sorted_eq ((sorted_perm low).append (sorted_perm high))
  rw [List.pairwise_append]
  refine ⟨pairwise_sorted low, pairwise_sorted high, fun x first y second => ?_⟩
  exact below x ((sorted_perm low).mem_iff.1 first) y ((sorted_perm high).mem_iff.1 second)

/-- Of samples in three parts, the outer two as long as what is dropped, the middle part is kept. -/
theorem kept_eq_sorted (perm : samples.Perm (low ++ window ++ high))
    (lowSize : low.length = cut samples.length fraction) (highSize : high.length = cut samples.length fraction)
    (enough : minimumKept ≤ samples.length - 2 * cut samples.length fraction)
    (below : ∀ x ∈ low, ∀ y ∈ window, Scalar.totalLe x y = true)
    (above : ∀ y ∈ window, ∀ z ∈ high, Scalar.totalLe y z = true) :
    kept samples fraction = sorted window := by
  have total := perm.length_eq
  rw [List.length_append, List.length_append] at total
  obtain ⟨middle, inside⟩ : ∃ y, y ∈ window := by
    apply List.exists_mem_of_length_pos
    rw [minimumKept] at enough
    omega
  have outside : ∀ x ∈ low ++ window, ∀ z ∈ high, Scalar.totalLe x z = true := by
    intro x first z last
    rcases List.mem_append.1 first with lowest | between
    · exact Ranked.totalLe_trans (below x lowest middle inside) (above middle inside z last)
    · exact above x between z last
  have ascending : sorted samples = sorted low ++ (sorted window ++ sorted high) := by
    rw [sorted_eq_of_perm perm, sorted_append outside, sorted_append below, List.append_assoc]
  have front : (sorted low).length = cut samples.length fraction := (length_sorted low).trans lowSize
  have size : (sorted window).length = samples.length - 2 * cut samples.length fraction := by
    rw [length_sorted]
    omega
  rw [kept]
  simp only [length_sorted]
  rw [if_pos enough, ascending, List.drop_left' front, List.take_left' size]

end Sample

end CycleCost
