/-
Module: CycleCost.Proofs.Measurement.Outliers
Purpose: What the dropped samples do to the summary. Whichever values stand at the places of the lowest and of
  the highest samples, infinite ones and values that are no number as well, the summary is the same bit for
  bit as long as none of them moves in between the kept samples.
Main exports: Sample.Extremes, Sample.Replaced, Sample.kept_of_extremes, Sample.outliers_have_no_influence
-/
import CycleCost.Proofs.Measurement.Window

namespace CycleCost.Sample

variable {α : Type} {n : Nat} {before after : Fin n → α} {low high : Finset (Fin n)} {fraction : α}

/-! ### Places of samples -/

section

variable [Scalar α]

/-- `low` and `high` are the places of the lowest and of the highest samples, `count` of each. Of equal samples it
    does not matter which are taken. -/
structure Extremes (samples : Fin n → α) (count : Nat) (low high : Finset (Fin n)) : Prop where
  apart : Disjoint low high
  lowSize : low.card = count
  highSize : high.card = count
  lowest : ∀ i ∈ low, ∀ j ∉ low, Scalar.totalLe (samples i) (samples j) = true
  highest : ∀ i ∈ high, ∀ j ∉ high, Scalar.totalLe (samples j) (samples i) = true

/-- Samples at the other places stay, and no replacement of an extreme one is nearer to the middle than a sample
    that stays. -/
structure Replaced (before after : Fin n → α) (low high : Finset (Fin n)) : Prop where
  same : ∀ i, i ∉ low → i ∉ high → after i = before i
  lowered : ∀ i ∈ low, ∀ j, j ∉ low → j ∉ high → Scalar.totalLe (after i) (before j) = true
  raised : ∀ i ∈ high, ∀ j, j ∉ low → j ∉ high → Scalar.totalLe (before j) (after i) = true

/-- Replacing nothing is a replacement of the extreme samples. -/
theorem Extremes.replaced {count : Nat} (extremes : Extremes before count low high) :
    Replaced before before low high where
  same _ _ _ := rfl
  lowered i member j outside _ := extremes.lowest i member j outside
  raised i member j _ outside := extremes.highest i member j outside

end

/-- All places, the low ones first and the high ones last. -/
theorem places_perm (apart : Disjoint low high) :
    (List.finRange n).Perm (low.toList ++ (low ∪ high)ᶜ.toList ++ high.toList) := by
  have front : low.toList.Disjoint (low ∪ high)ᶜ.toList := by
    intro i inside member
    rw [Finset.mem_toList, Finset.mem_compl, Finset.mem_union] at member
    exact member (.inl (Finset.mem_toList.1 inside))
  have back : (low.toList ++ (low ∪ high)ᶜ.toList).Disjoint high.toList := by
    intro i member inside
    rw [List.mem_append, Finset.mem_toList, Finset.mem_toList, Finset.mem_compl, Finset.mem_union] at member
    rw [Finset.mem_toList] at inside
    rcases member with lowest | between
    · exact Finset.disjoint_left.1 apart lowest inside
    · exact between (.inr inside)
  have distinct := ((Finset.nodup_toList _).append (Finset.nodup_toList _) front).append
    (Finset.nodup_toList _) back
  rw [List.perm_ext_iff_of_nodup (List.nodup_finRange n) distinct]
  intro i
  simp only [List.mem_finRange, List.mem_append, Finset.mem_toList, Finset.mem_compl, Finset.mem_union, true_iff]
  tauto

/-- The samples, taken from the low places first and from the high places last. -/
theorem ofFn_perm (apart : Disjoint low high) (samples : Fin n → α) :
    (List.ofFn samples).Perm (low.toList.map samples ++ (low ∪ high)ᶜ.toList.map samples ++
      high.toList.map samples) := by
  rw [List.ofFn_eq_map, ← List.map_append, ← List.map_append]
  exact (places_perm apart).map samples

/-! ### The summary -/

section

variable [Scalar α] [Ranked α]

/-- With replaced extremes the kept samples are those of the other places. -/
theorem kept_of_extremes (enough : minimumKept ≤ n - 2 * cut n fraction)
    (extremes : Extremes before (cut n fraction) low high) (replaced : Replaced before after low high) :
    kept (List.ofFn after) fraction = sorted ((low ∪ high)ᶜ.toList.map before) := by
  have stays : (low ∪ high)ᶜ.toList.map after = (low ∪ high)ᶜ.toList.map before := by
    apply List.map_congr_left
    intro i member
    rw [Finset.mem_toList, Finset.mem_compl, Finset.mem_union, not_or] at member
    exact replaced.same i member.1 member.2
  have perm := ofFn_perm extremes.apart after
  rw [stays] at perm
  have size : (List.ofFn after).length = n := List.length_ofFn
  apply kept_eq_sorted perm
  · rw [List.length_map, Finset.length_toList, size, extremes.lowSize]
  · rw [List.length_map, Finset.length_toList, size, extremes.highSize]
  · rw [size]
    exact enough
  · simp only [List.mem_map, Finset.mem_toList, Finset.mem_compl, Finset.mem_union, not_or]
    rintro _ ⟨i, inside, rfl⟩ _ ⟨j, outside, rfl⟩
    exact replaced.lowered i inside j outside.1 outside.2
  · simp only [List.mem_map, Finset.mem_toList, Finset.mem_compl, Finset.mem_union, not_or]
    rintro _ ⟨j, outside, rfl⟩ _ ⟨i, inside, rfl⟩
    exact replaced.raised i inside j outside.1 outside.2

end

/-- Where samples are dropped, replacing any of the dropped ones by values that are no nearer to the middle than
    the kept ones leaves every figure of the summary as it is, to the last bit. -/
theorem outliers_have_no_influence [Scalar α] [Binary64 α] {n : Nat} {before after : Fin n → α}
    {low high : Finset (Fin n)} {fraction : α} (enough : minimumKept ≤ n - 2 * cut n fraction)
    (extremes : Extremes before (cut n fraction) low high) (replaced : Replaced before after low high) :
    summarize (List.ofFn after) fraction = summarize (List.ofFn before) fraction := by
  have present (samples : Fin n → α) : List.ofFn samples ≠ [] := by
    rw [← List.length_pos_iff, List.length_ofFn]
    rw [minimumKept] at enough
    omega
  have same : kept (List.ofFn after) fraction = kept (List.ofFn before) fraction :=
    (kept_of_extremes enough extremes replaced).trans
      (kept_of_extremes enough extremes extremes.replaced).symm
  rw [summarize_eq_ok (present after), summarize_eq_ok (present before), same, List.length_ofFn, List.length_ofFn]

/-- Of five floats a fifth is dropped at each end, and the largest may as well be no number and the smallest
    infinite. -/
theorem outliers_have_no_influence_five :
    Extremes ![3.0, 1.0, 2.0, 5.0, 4.0] (cut 5 (0.2 : Float)) {1} {3} ∧
    Replaced ![3.0, 1.0, 2.0, 5.0, 4.0] ![3.0, -1.0 / 0.0, 2.0, 0.0 / 0.0, (4.0 : Float)] {1} {3} ∧
    summarize (List.ofFn ![3.0, -1.0 / 0.0, 2.0, 0.0 / 0.0, 4.0]) (0.2 : Float) =
      summarize (List.ofFn ![3.0, 1.0, 2.0, 5.0, 4.0]) 0.2 := by
  have extremes : Extremes ![3.0, 1.0, 2.0, 5.0, 4.0] (cut 5 (0.2 : Float)) {1} {3} :=
    ⟨by decide, by decide +kernel, by decide +kernel, by decide +kernel, by decide +kernel⟩
  have replaced : Replaced ![3.0, 1.0, 2.0, 5.0, 4.0] ![3.0, -1.0 / 0.0, 2.0, 0.0 / 0.0, (4.0 : Float)] {1} {3} :=
    ⟨by decide +kernel, by decide +kernel, by decide +kernel⟩
  exact ⟨extremes, replaced, outliers_have_no_influence (by decide +kernel) extremes replaced⟩

end CycleCost.Sample
