/-
Module: CycleCost.Proofs.Measurement.Average
Purpose: The trimmed mean as a measure of where the samples lie, without rounding. It lies among the kept samples,
  no sample can grow and lower it, and it goes along with every change of unit and origin, also with one that
  turns the order around, because the kept samples are the middle ones.
Main exports: Sample.sorted_le_sorted, Sample.kept_le_kept, Sample.kept_map_perm, Scalar.mean_mem,
  Sample.summary_follows_samples
-/
import CycleCost.Proofs.Measurement.Window

namespace CycleCost

/-! ### Lists that grow -/

section

variable {K : Type} [LinearOrder K] {xs ys : List K}

theorem orderedInsert_eq_cons {x : K} (least : ∀ z ∈ xs, x ≤ z) : xs.orderedInsert (· ≤ ·) x = x :: xs := by
  cases xs with
  | nil => rfl
  | cons z rest => exact List.orderedInsert_cons_of_le _ rest (least z List.mem_cons_self)

/-- Inserting a larger number into a larger list gives a larger list. -/
theorem orderedInsert_le_orderedInsert {x y : K} (larger : x ≤ y) (le : List.Forall₂ (· ≤ ·) xs ys)
    (ordered : xs.Pairwise (· ≤ ·)) (ordered' : ys.Pairwise (· ≤ ·)) :
    List.Forall₂ (· ≤ ·) (xs.orderedInsert (· ≤ ·) x) (ys.orderedInsert (· ≤ ·) y) := by
  induction le generalizing x y with
  | nil => exact .cons larger .nil
  | @cons x' y' xs ys first rest ih =>
    rw [List.pairwise_cons] at ordered ordered'
    obtain ⟨leastX, ordered⟩ := ordered
    obtain ⟨leastY, ordered'⟩ := ordered'
    rw [List.orderedInsert_cons, List.orderedInsert_cons]
    by_cases front : x ≤ x' <;> by_cases front' : y ≤ y'
    · rw [if_pos front, if_pos front']
      exact .cons larger (.cons first rest)
    · -- Only the larger number moves back: the head of the first list stands where it would be inserted.
      have next := ih (first.trans (not_le.1 front').le) ordered ordered'
      rw [orderedInsert_eq_cons leastX] at next
      rw [if_pos front, if_neg front']
      exact .cons (front.trans first) next
    · have next := ih (larger.trans front') ordered ordered'
      rw [orderedInsert_eq_cons leastY] at next
      rw [if_neg front, if_pos front']
      exact .cons ((not_le.1 front).le.trans larger) next
    · rw [if_neg front, if_neg front']
      exact .cons first (ih larger ordered ordered')

end

/-! ### Means -/

variable {K : Type} [LinearOrder K] [ScalarField K] [ExactScalar K] {xs ys : List K}

namespace Scalar

theorem mean_eq_of_perm (perm : xs.Perm ys) : mean xs = mean ys := by
  rw [mean_eq, mean_eq, perm.sum_eq, perm.length_eq]

/-- Samples that grow one by one do not lower the mean. -/
theorem mean_le_mean (le : List.Forall₂ (· ≤ ·) xs ys) : mean xs ≤ mean ys := by
  rw [mean_eq, mean_eq, le.length_eq]
  exact div_le_div_of_nonneg_right le.sum_le_sum (Nat.cast_nonneg _)

/-- A mean lies between the bounds of its numbers. -/
theorem mean_mem {least greatest : K} (present : xs ≠ []) (bounded : ∀ v ∈ xs, least ≤ v ∧ v ≤ greatest) :
    least ≤ mean xs ∧ mean xs ≤ greatest := by
  have size : (0 : K) < xs.length := Nat.cast_pos.2 (List.length_pos_iff.2 present)
  have low := xs.card_nsmul_le_sum least fun v member => (bounded v member).1
  have high := xs.sum_le_card_nsmul greatest fun v member => (bounded v member).2
  rw [nsmul_eq_mul] at low high
  rw [mean_eq, le_div_iff₀ size, div_le_iff₀ size, mul_comm least, mul_comm greatest]
  exact ⟨low, high⟩

end Scalar

namespace Sample

variable {samples others : List K} {fraction : K}

/-! ### Samples that grow -/

/-- Over an ordered field the order of the samples is the usual one. -/
theorem sorted_eq_insertionSort (samples : List K) : sorted samples = samples.insertionSort (· ≤ ·) := by
  apply sorted_eq (List.perm_insertionSort _ samples)
  exact (List.pairwise_insertionSort _ samples).imp ExactScalar.totalLe_iff.2

/-- When samples grow, so does the sample at each rank. -/
theorem sorted_le_sorted (grown : List.Forall₂ (· ≤ ·) samples others) :
    List.Forall₂ (· ≤ ·) (sorted samples) (sorted others) := by
  rw [sorted_eq_insertionSort, sorted_eq_insertionSort]
  induction grown with
  | nil => exact .nil
  | cons first _ ih =>
    exact orderedInsert_le_orderedInsert first ih (List.pairwise_insertionSort _ _)
      (List.pairwise_insertionSort _ _)

theorem kept_le_kept (grown : List.Forall₂ (· ≤ ·) samples others) :
    List.Forall₂ (· ≤ ·) (kept samples fraction) (kept others fraction) := by
  have ranks := sorted_le_sorted grown
  simp only [kept, length_sorted, grown.length_eq]
  split
  · exact List.forall₂_take _ (List.forall₂_drop _ ranks)
  · exact ranks

/-! ### Change of unit and origin -/

/-- A rising change of scale keeps the order of the samples. -/
theorem sorted_map_of_monotone {f : K → K} (monotone : Monotone f) (samples : List K) :
    sorted (samples.map f) = (sorted samples).map f := by
  apply sorted_eq ((sorted_perm samples).map f)
  rw [List.pairwise_map]
  apply (pairwise_sorted samples).imp
  intro x y le
  exact ExactScalar.totalLe_iff.2 (monotone (ExactScalar.totalLe_iff.1 le))

theorem sorted_map_of_antitone {f : K → K} (antitone : Antitone f) (samples : List K) :
    sorted (samples.map f) = ((sorted samples).map f).reverse := by
  apply sorted_eq ((List.reverse_perm _).trans ((sorted_perm samples).map f))
  rw [List.pairwise_reverse, List.pairwise_map]
  apply (pairwise_sorted samples).imp
  intro x y le
  exact ExactScalar.totalLe_iff.2 (antitone (ExactScalar.totalLe_iff.1 le))

/-- The middle of a list is the middle of the reversed list. -/
theorem middle_reverse {α : Type} (list : List α) {c : Nat} (room : 2 * c ≤ list.length) :
    (list.reverse.drop c).take (list.length - 2 * c) =
      ((list.drop c).take (list.length - 2 * c)).reverse := by
  have front : min (list.length - c) list.length - (list.length - 2 * c) = c := by omega
  have size : list.length - c - c = list.length - 2 * c := by omega
  rw [List.drop_reverse, List.take_reverse, List.length_take, front, List.drop_take, size]

/-- A change that keeps the order or turns it around keeps which samples are averaged. -/
theorem kept_map_perm {f : K → K} (either : Monotone f ∨ Antitone f) (samples : List K) (fraction : K) :
    (kept (samples.map f) fraction).Perm ((kept samples fraction).map f) := by
  have size : ((sorted samples).map f).length = samples.length := by rw [List.length_map, length_sorted]
  simp only [kept, length_sorted, List.length_map]
  rcases either with monotone | antitone
  · rw [sorted_map_of_monotone monotone]
    split
    · rw [List.map_take, List.map_drop]
    · exact .refl _
  · rw [sorted_map_of_antitone antitone]
    split
    next enough =>
      -- What is dropped below takes the place of what is dropped above.
      have room : 2 * cut samples.length fraction ≤ ((sorted samples).map f).length := by
        rw [minimumKept] at enough
        omega
      have turned := middle_reverse ((sorted samples).map f) room
      rw [size] at turned
      rw [turned, List.map_take, List.map_drop]
      exact List.reverse_perm _
    next => exact List.reverse_perm _

theorem monotone_or_antitone_affine (c d : K) : Monotone (c * · + d) ∨ Antitone (c * · + d) := by
  rcases le_total 0 c with positive | negative
  · left
    intro x y le
    exact add_le_add_left (mul_le_mul_of_nonneg_left le positive) d
  · right
    intro x y le
    exact add_le_add_left (mul_le_mul_of_nonpos_left le negative) d

theorem variance_eq_of_perm (center : K) (perm : xs.Perm ys) : variance center xs = variance center ys :=
  Scalar.mean_eq_of_perm (perm.map _)

/-- Squared distances go along with the square of the unit. -/
theorem variance_map_affine (present : xs ≠ []) (center c d : K) :
    variance (c * center + d) (xs.map (c * · + d)) = c * c * variance center xs := by
  have distance : (fun v => Scalar.square (v - (c * center + d))) ∘ (c * · + d) =
      (c * c * · + 0) ∘ fun v : K => Scalar.square (v - center) := by
    funext v
    simp only [Function.comp_apply, Scalar.square]
    ring
  have present' : xs.map (fun v => Scalar.square (v - center)) ≠ [] := mt List.map_eq_nil_iff.1 present
  rw [variance, variance, List.map_map, distance, ← List.map_map, Scalar.mean_map_affine present', add_zero]

/-! ### The summary -/

omit [ExactScalar K] in
/-- A kept sample is the least one, and one is the greatest. -/
theorem exists_bounds_kept (present : samples ≠ []) (fraction : K) : ∃ least ∈ kept samples fraction,
    ∃ greatest ∈ kept samples fraction, ∀ v ∈ kept samples fraction, least ≤ v ∧ v ≤ greatest := by
  have some : (kept samples fraction).toFinset.Nonempty :=
    List.toFinset_nonempty_iff _ |>.2 (kept_ne_nil present fraction)
  refine ⟨_, List.mem_toFinset.1 (Finset.min'_mem _ some), _, List.mem_toFinset.1 (Finset.max'_mem _ some), ?_⟩
  intro v member
  exact ⟨Finset.min'_le _ v (List.mem_toFinset.2 member), Finset.le_max' _ v (List.mem_toFinset.2 member)⟩

/-- The trimmed mean lies among the kept samples. It does not fall when samples grow. A change of unit and origin
    of all samples is one of the mean, and the variance goes along with the square of the unit; as many samples
    are averaged as before, also when the change turns their order around. -/
theorem summary_follows_samples (present : samples ≠ []) (fraction : K) :
    let averaged := kept samples fraction
    let center := Scalar.mean averaged
    let spread := variance center averaged
    summarize samples fraction = .ok ⟨center, Scalar.root spread, averaged.length, samples.length⟩ ∧
    (∃ least ∈ averaged, ∃ greatest ∈ averaged, (∀ v ∈ averaged, least ≤ v ∧ v ≤ greatest) ∧
      least ≤ center ∧ center ≤ greatest) ∧
    (∀ others, List.Forall₂ (· ≤ ·) samples others →
      ∃ grown, summarize others fraction = .ok grown ∧ center ≤ grown.mean) ∧
    ∀ c d, let scaled := kept (samples.map (c * · + d)) fraction
      Scalar.mean scaled = c * center + d ∧ variance (Scalar.mean scaled) scaled = c * c * spread ∧
      summarize (samples.map (c * · + d)) fraction =
        .ok ⟨c * center + d, Scalar.root (c * c * spread), averaged.length, samples.length⟩ := by
  intro averaged center spread
  have nonempty : averaged ≠ [] := kept_ne_nil present fraction
  refine ⟨summarize_eq_ok present fraction, ?between, ?monotone, ?affine⟩
  case between =>
    obtain ⟨least, lowest, greatest, highest, bounded⟩ := exists_bounds_kept present fraction
    exact ⟨least, lowest, greatest, highest, bounded, Scalar.mean_mem nonempty bounded⟩
  case monotone =>
    intro others grown
    have present' : others ≠ [] := by
      rintro rfl
      exact present (List.forall₂_nil_right_iff.1 grown)
    exact ⟨_, summarize_eq_ok present' fraction, Scalar.mean_le_mean (kept_le_kept grown)⟩
  case affine =>
    intro c d scaled
    have perm : scaled.Perm (averaged.map (c * · + d)) :=
      kept_map_perm (monotone_or_antitone_affine c d) samples fraction
    have mean : Scalar.mean scaled = c * center + d :=
      (Scalar.mean_eq_of_perm perm).trans (Scalar.mean_map_affine nonempty c d)
    have squares : variance (Scalar.mean scaled) scaled = c * c * spread := by
      rw [mean, variance_eq_of_perm _ perm, variance_map_affine nonempty]
    have size : scaled.length = averaged.length := perm.length_eq.trans (List.length_map _)
    have present' : samples.map (c * · + d) ≠ [] := mt List.map_eq_nil_iff.1 present
    refine ⟨mean, squares, ?_⟩
    rw [← mean, ← squares, ← size, summarize_eq_ok present' fraction, List.length_map]

/-- Of five numbers the middle three are averaged, and so they are when every number turns its sign. -/
theorem summary_follows_samples_five :
    ([3, 1, 2, 100, 4] : List ℚ) ≠ [] ∧ Scalar.mean (kept [3, 1, 2, 100, 4] (1 / 5 : ℚ)) = 3 ∧
      Scalar.mean (kept ([3, 1, 2, 100, 4].map (-2 * · + 1)) (1 / 5 : ℚ)) = -5 ∧
      List.Forall₂ (· ≤ ·) [3, 1, 2, 100, 4] [3, 1, 7, 100, (4 : ℚ)] ∧
      ∃ grown, summarize [3, 1, 7, 100, 4] (1 / 5 : ℚ) = .ok grown ∧ 3 ≤ grown.mean := by
  have present : ([3, 1, 2, 100, 4] : List ℚ) ≠ [] := List.cons_ne_nil _ _
  have grows : List.Forall₂ (· ≤ ·) [3, 1, 2, 100, 4] [3, 1, 7, 100, (4 : ℚ)] := by norm_num
  have ascending : sorted ([3, 1, 2, 100, 4] : List ℚ) = [1, 2, 3, 4, 100] :=
    sorted_eq (by decide) (by decide)
  have one : cut 5 (1 / 5 : ℚ) = 1 := by decide +kernel
  have mean : Scalar.mean (kept [3, 1, 2, 100, 4] (1 / 5 : ℚ)) = 3 := by
    simp only [kept, ascending, List.length_cons, List.length_nil, one]
    rw [Scalar.mean_eq]
    norm_num [minimumKept]
  obtain ⟨-, -, monotone, affine⟩ := summary_follows_samples present (1 / 5)
  rw [mean] at monotone affine
  exact ⟨present, mean, (affine (-2) 1).1.trans (by norm_num), grows, monotone _ grows⟩

end Sample

end CycleCost
