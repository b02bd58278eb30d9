/-
Module: CycleCost.Proofs.Measurement.Equal
Purpose: The summary of samples that are all equal. Trimming changes nothing but their number, so it is the sum that
  decides: where the multiples of the sample are floats the mean is the sample and the deviation is zero; else the
  additions round, and the mean is off by a share that grows with the number of samples, or out of range.
Main exports: Sample.kept_replicate, Sample.summarize_replicate, Sample.root_variance_replicate,
  Sample.equal_samples_average, Sample.equal_samples_miss_their_mean
-/
import CycleCost.Proofs.Arithmetic.Repeated
import CycleCost.Proofs.Measurement.Window

namespace CycleCost.Sample

open Decimal Float.Model Float.Model.UnpackedFloat

/-! ### Trimming -/

section

variable {α : Type} [Scalar α]

theorem sorted_replicate (n : Nat) (v : α) : sorted (List.replicate n v) = List.replicate n v :=
  List.perm_replicate.1 (sorted_perm (List.replicate n v))

/-- Of equal samples it only matters how many are averaged. -/
theorem kept_replicate (n : Nat) (v fraction : α) : kept (List.replicate n v) fraction =
    List.replicate (if minimumKept ≤ n - 2 * cut n fraction then n - 2 * cut n fraction else n) v := by
  rw [kept, sorted_replicate]
  simp only [List.length_replicate]
  split
  · rw [List.drop_replicate, List.take_replicate]
    congr 1
    omega
  · rfl

/-- Equal samples are summarised by the mean of those that the trimming keeps. -/
theorem summarize_replicate {n : Nat} (present : 0 < n) (v fraction : α) :
    let k := if minimumKept ≤ n - 2 * cut n fraction then n - 2 * cut n fraction else n
    let mean := Scalar.mean (List.replicate k v)
    summarize (List.replicate n v) fraction =
      .ok ⟨mean, Scalar.root (variance mean (List.replicate k v)), k, n⟩ := by
  have samples : List.replicate n v ≠ [] := by
    rw [← List.length_pos_iff, List.length_replicate]
    exact present
  rw [summarize_eq_ok samples, kept_replicate, List.length_replicate, List.length_replicate]

theorem variance_replicate (center v : α) (k : Nat) :
    variance center (List.replicate k v) = Scalar.mean (List.replicate k (Scalar.square (v - center))) := by
  rw [variance, List.map_replicate]

end

/-! ### The deviation -/

variable {v : Float} {k : Nat}

/-- Equal squares that are zero or infinite have themselves as the root of their mean. -/
theorem root_variance_replicate {center x : Float} (positive : 0 < k) (small : k < 2 ^ 64)
    (square : Scalar.square (v - center) = x)
    (ends : x.toModel.unpack = .zero .positive ∨ x.toModel.unpack = .infinity .positive) :
    Scalar.root (variance center (List.replicate k v)) = x := by
  have both : IsEnd x.toModel.unpack := ⟨.positive, ends⟩
  rw [variance_replicate, square, mean_replicate_end both positive small, root_end ends]

/-! ### The summary -/

/-- What equal samples are summarized as. Of `n` of them `k` are averaged. If the mean is the sample, the deviation is
    zero. As long as the sum stays in range, the mean is the rounded quotient of the sum, each addition rounded, and
    the count; it is the sample again when this quotient is. Once the sum is out of range, the mean is infinite and
    so is the deviation. With as many samples as a float can count the mean is the sample if its multiples are
    floats, and otherwise it is off by at most one share of rounding for each sample. A float takes eight bytes, so
    that a list of them is shorter than `2 ^ 60`. -/
theorem equal_samples_average {v : Float} (finite : v.isFinite) {n : Nat} (present : 0 < n) (memory : n < 2 ^ 60)
    (fraction : Float) :
    let c := cut n fraction
    let k := if minimumKept ≤ n - 2 * c then n - 2 * c else n
    let sums := accumulated (valueOf v)
    ∃ mean deviation, summarize (List.replicate n v) fraction = .ok ⟨mean, deviation, k, n⟩ ∧
      (mean = v → deviation = 0) ∧
      ((∀ j ≤ k, |sums j| < rangeEnd) → mean.isFinite ∧ valueOf mean = rounded (sums k / rounded k) ∧
        (mean = v ↔ rounded (sums k / rounded k) = valueOf v)) ∧
      ((∃ j ≤ k, rangeEnd ≤ |sums j|) → mean = v / 0 ∧ deviation = 1 / 0) ∧
      (k ≤ 2 ^ 53 →
        ((∀ j ≤ k, ∃ w : Float, w.isFinite ∧ valueOf w = j * valueOf v) → mean = v) ∧
        ((1 + growth k) * (k * |valueOf v|) < rangeEnd →
          mean.isFinite ∧ |valueOf mean - valueOf v| ≤ growth k * |valueOf v| + halfLeast)) := by
  intro c k sums
  have positive : 0 < k := by
    dsimp only [k]
    rw [minimumKept]
    split <;> omega
  have small : k < 2 ^ 64 := by
    dsimp only [k]
    split <;> omega
  refine ⟨Scalar.mean (List.replicate k v),
    Scalar.root (variance (Scalar.mean (List.replicate k v)) (List.replicate k v)),
    summarize_replicate present v fraction, ?same, ?inRange, ?outOfRange,
    fun short => ⟨mean_replicate_of_multiples finite positive short, ?close⟩⟩
  case same =>
    intro same
    apply root_variance_replicate positive small
    · rw [same]
      exact square_sub_self finite
    · exact .inl rfl
  case inRange =>
    intro inRange
    obtain ⟨meanFinite, mean⟩ := valueOf_mean_replicate finite positive small inRange
    exact ⟨meanFinite, mean, mean_replicate_eq_iff finite positive small inRange⟩
  case outOfRange =>
    intro outOfRange
    have infinite := mean_replicate_outOfRange finite positive small outOfRange
    have nonzero : valueOf v ≠ 0 := by
      intro zero
      obtain ⟨j, -, beyond⟩ := outOfRange
      dsimp only [sums] at beyond
      rw [zero, accumulated_zero, abs_zero] at beyond
      exact absurd beyond (not_le.2 (two_zpow_pos _))
    constructor
    · exact eq_of_unpack_eq (infinite.trans (div_zero_of_ne finite nonzero).symm)
    · exact root_variance_replicate positive small (square_sub_infinity finite infinite) (.inr rfl)
  case close =>
    intro bounded
    have float := rounded_valueOf finite
    have inRange := abs_accumulated_lt float bounded
    obtain ⟨meanFinite, mean⟩ := valueOf_mean_replicate finite positive small inRange
    rw [mean, rounded_natCast short]
    exact ⟨meanFinite, abs_rounded_accumulated_div_sub_le float positive⟩

/-- The multiples of 4.25 are floats, up to the seventh and further; the double of 1.5e308 is out of range. -/
theorem equal_samples_average_eleven :
    ((4.25 : Float).isFinite ∧ 0 < 11 ∧ 11 < 2 ^ 60 ∧
      summarize (List.replicate 11 4.25) (0.2 : Float) = .ok ⟨4.25, 0, 7, 11⟩) ∧
    (1.5e308 : Float).isFinite ∧ 0 < 2 ∧ 2 < 2 ^ 60 ∧
      summarize (List.replicate 2 1.5e308) (0.2 : Float) = .ok ⟨1.5e308 / 0, 1 / 0, 2, 2⟩ := by
  constructor
  · have finite : (4.25 : Float).isFinite := by decide +kernel
    have two : cut 11 (0.2 : Float) = 2 := by decide +kernel
    have multiples : ∀ j ≤ 7, (Float.ofNat j * 4.25).isFinite ∧
        valueOf (Float.ofNat j * 4.25) = j * valueOf 4.25 := by decide +kernel
    have equal := equal_samples_average finite (n := 11) (by decide) (by decide) 0.2
    simp only [two] at equal
    obtain ⟨mean, deviation, summary, same, -, -, exact⟩ := equal
    obtain rfl : mean = 4.25 := (exact (by decide)).1 fun j below => ⟨_, multiples j below⟩
    obtain rfl := same rfl
    exact ⟨finite, by decide, by decide, summary⟩
  · have finite : (1.5e308 : Float).isFinite := by decide +kernel
    have none : cut 2 (0.2 : Float) = 0 := by decide +kernel
    have beyond : rangeEnd ≤ |accumulated (valueOf 1.5e308) 2| := by decide +kernel
    have equal := equal_samples_average finite (n := 2) (by decide) (by decide) 0.2
    simp only [none] at equal
    obtain ⟨mean, deviation, summary, -, -, outOfRange, -⟩ := equal
    obtain ⟨rfl, rfl⟩ := outOfRange ⟨2, le_rfl, beyond⟩
    exact ⟨finite, by decide, by decide, summary⟩

/-- Equal samples need not have themselves as their mean: a tenth, added up three times and divided by three, has
    become more than a tenth. -/
theorem equal_samples_miss_their_mean :
    ¬ ∀ (v fraction : Float) (n : Nat), v.isFinite → 0 < n → ∃ summary,
      summarize (List.replicate n v) fraction = .ok summary ∧ summary.mean == v ∧ summary.deviation == 0 := by
  intro always
  obtain ⟨summary, summarized, mean, -⟩ := always 0.1 0.2 3 (by decide +kernel) (by decide)
  have none : cut 3 (0.2 : Float) = 0 := by decide +kernel
  have more : (Scalar.mean (List.replicate 3 0.1) == (0.1 : Float)) = false := by decide +kernel
  rw [summarize_replicate (by decide), none, if_pos (by decide)] at summarized
  obtain rfl := Except.ok.inj summarized
  exact absurd mean (ne_true_of_eq_false more)

end CycleCost.Sample
