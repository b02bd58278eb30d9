/-
Module: CycleCost.Proofs.Measurement.Window
Purpose: Which samples the trimmed mean is taken over. In the total order the samples are one ascending list, the
  same for every order in which they came; as many are dropped at its start as at its end, and what is left
  is averaged, unless that would be too few. The number to drop is the whole part of a product of floats,
  which for every count that fits into memory is far from the limits of the conversion.
Main exports: Sample.summarize_eq_of_perm, Sample.exists_window, Sample.valueOf_share, Sample.cut_eq_floor,
  Sample.summarize_averages_window
-/
import CycleCost.Proofs.Arithmetic.Rounded
import CycleCost.Proofs.Measurement.Ranking
import CycleCost.Proofs.Measurement.Sample

namespace CycleCost.Sample

section

variable {α : Type} [Scalar α]

/-! ### The order of the samples -/

section

variable [Ranked α]

theorem kept_eq_of_perm {samples others : List α} (perm : others.Perm samples) (fraction : α) :
    kept others fraction = kept samples fraction := by
  rw [kept, kept, sorted_eq_of_perm perm]

/-- The summary does not depend on the order in which the samples came. -/
theorem summarize_eq_of_perm {samples others : List α} (perm : others.Perm samples) (fraction : α) :
    summarize others fraction = summarize samples fraction := by
  have empty : others.isEmpty = samples.isEmpty := by
    rw [Bool.eq_iff_iff, List.isEmpty_iff_length_eq_zero, List.isEmpty_iff_length_eq_zero, perm.length_eq]
  rw [summarize, summarize, empty, kept_eq_of_perm perm, perm.length_eq]

end

/-! ### The window -/

/-- The averaged samples stand in the middle of the ascending list, with equally many on both sides. -/
theorem exists_window (samples : List α) (fraction : α) : ∃ low high,
    sorted samples = low ++ kept samples fraction ++ high ∧ low.length = high.length ∧
      if minimumKept ≤ samples.length - 2 * cut samples.length fraction
        then low.length = cut samples.length fraction else low = [] := by
  rw [kept]
  simp only [length_sorted]
  generalize cut samples.length fraction = c
  have size := length_sorted samples
  generalize sorted samples = ascending at size ⊢
  by_cases enough : minimumKept ≤ samples.length - 2 * c
  · have room : 2 * c ≤ samples.length := by
      rw [minimumKept] at enough
      omega
    simp only [if_pos enough]
    refine ⟨ascending.take c, ascending.drop (samples.length - c), ?split, ?even, ?dropped⟩
    case split =>
      have rest : ascending.drop (samples.length - c) =
          (ascending.drop c).drop (samples.length - 2 * c) := by
        rw [List.drop_drop]
        congr 1
        omega
      rw [rest, List.append_assoc, List.take_append_drop, List.take_append_drop]
    case even =>
      rw [List.length_take, List.length_drop]
      omega
    case dropped =>
      rw [List.length_take]
      omega
  · simp only [if_neg enough]
    exact ⟨[], [], by simp, rfl, rfl⟩

/-- Samples that are not empty have a summary, of the window that is kept. -/
theorem summarize_eq_ok {samples : List α} (present : samples ≠ []) (fraction : α) :
    summarize samples fraction = .ok ⟨Scalar.mean (kept samples fraction),
      Scalar.root (variance (Scalar.mean (kept samples fraction)) (kept samples fraction)),
      (kept samples fraction).length, samples.length⟩ :=
  if_neg (mt List.isEmpty_iff.1 present)

/-- Only the empty list of samples has no summary. -/
theorem eq_nil_of_error {samples : List α} {fraction : α} {fault : Fault}
    (failed : summarize samples fraction = .error fault) : samples = [] := by
  by_contra present
  rw [summarize_eq_ok present] at failed
  cases failed

end

/-! ### The number of samples to drop -/

theorem valueOf_half : (Scalar.one / Scalar.ofNat 2 : Float).isFinite ∧
    valueOf (Scalar.one / Scalar.ofNat 2) = 1 / 2 := by
  have decoded : Decimal.decode (Scalar.one / Scalar.ofNat 2) = .finite false ⟨2 ^ 52, -53, true⟩ := by
    decide +kernel
  refine ⟨by decide +kernel, ?_⟩
  have value := amount_finite_positive ⟨2 ^ 52, -53, true⟩ (Decimal.decode_canonical decoded).positive
  rw [valueOf, Decimal.unpack_of_decode decoded]
  refine value.trans ?_
  rw [Decimal.Magnitude.value]
  norm_num

/-- The share is the fraction moved into the range from zero to one half, and zero where that is not finite. -/
theorem share_eq (fraction : Float) : share fraction =
    if fraction.isFinite then
      if fraction < Scalar.zero then Scalar.zero
      else if Scalar.one / Scalar.ofNat 2 < fraction then Scalar.one / Scalar.ofNat 2 else fraction
    else Scalar.zero := by
  simp only [share, Scalar.clamp, Scalar.lt, Scalar.finite, decide_eq_true_eq]

/-- The share is the number from zero to one half that is nearest to the fraction. -/
theorem valueOf_share (fraction : Float) : (share fraction).isFinite ∧
    valueOf (share fraction) = if fraction.isFinite then max 0 (min (valueOf fraction) (1 / 2)) else 0 := by
  obtain ⟨zeroFinite, zero⟩ := valueOf_zero
  obtain ⟨halfFinite, half⟩ := valueOf_half
  rw [share_eq]
  by_cases finite : fraction.isFinite
  · have low := lt_iff_valueOf_lt finite zeroFinite
    have high := lt_iff_valueOf_lt halfFinite finite
    rw [zero] at low
    rw [half] at high
    rw [if_pos finite, if_pos finite]
    by_cases below : fraction < Scalar.zero
    · rw [if_pos below, zero, max_eq_left ((min_le_left _ _).trans (low.1 below).le)]
      exact ⟨zeroFinite, rfl⟩
    · have nonneg := not_lt.1 (mt low.2 below)
      rw [if_neg below]
      by_cases above : Scalar.one / Scalar.ofNat 2 < fraction
      · rw [if_pos above, half, min_eq_right (high.1 above).le, max_eq_right one_half_pos.le]
        exact ⟨halfFinite, rfl⟩
      · rw [if_neg above, min_eq_left (not_lt.1 (mt high.2 above)), max_eq_right nonneg]
        exact ⟨finite, rfl⟩
  · rw [if_neg finite, if_neg finite]
    exact ⟨zeroFinite, zero⟩

/-- The share lies between zero and one half, whatever the fraction asked for. -/
theorem valueOf_share_mem (fraction : Float) :
    0 ≤ valueOf (share fraction) ∧ valueOf (share fraction) ≤ 1 / 2 := by
  rw [(valueOf_share fraction).2]
  split
  · exact ⟨le_max_left _ _, max_le one_half_pos.le (min_le_right _ _)⟩
  · exact ⟨le_rfl, one_half_pos.le⟩

/-- The product of a count that fits into memory with the share is finite, and its whole part is far from the
    limits of a conversion. -/
theorem cut_eq_floor {n : Nat} (memory : n < 2 ^ 60) (fraction : Float) :
    (Scalar.ofNat n * share fraction).isFinite ∧
      cut n fraction = ⌊valueOf (Scalar.ofNat n * share fraction)⌋₊ ∧ 2 * cut n fraction < 2 ^ 64 := by
  obtain ⟨countFinite, count⟩ := valueOf_ofNat (n := n) (by omega)
  obtain ⟨least, most⟩ := valueOf_share_mem fraction
  have bound : (n : ℚ) ≤ 2 ^ 60 := by exact_mod_cast memory.le
  have nonneg : 0 ≤ valueOf (Float.ofNat n) := count ▸ rounded_nonneg n.cast_nonneg
  have exact : valueOf (Float.ofNat n) * valueOf (share fraction) ≤ n + 1 / 2 := by
    calc valueOf (Float.ofNat n) * valueOf (share fraction) ≤ (2 * n + 1) * (1 / 2) :=
          mul_le_mul (count ▸ rounded_le n.cast_nonneg) most least (by positivity)
      _ = n + 1 / 2 := by ring
  have limit : (2 : ℚ) ^ 62 < rangeEnd := by
    rw [← zpow_natCast]
    exact zpow_lt_zpow_right₀ one_lt_two (by decide)
  obtain ⟨finite, nonneg, product⟩ := (isRounded_mul countFinite (valueOf_share fraction).1).of_nonneg
    (mul_nonneg nonneg least) (by linarith only [exact, bound, limit])
  have small : valueOf (Float.ofNat n * share fraction) ≤ 2 ^ 62 := by linarith only [product, exact, bound]
  have whole : cut n fraction = ⌊valueOf (Float.ofNat n * share fraction)⌋₊ :=
    toNat_toUInt64 finite nonneg (small.trans_lt (by norm_num))
  have room : ⌊valueOf (Float.ofNat n * share fraction)⌋₊ ≤ 2 ^ 62 :=
    Nat.floor_le_of_le (by exact_mod_cast small)
  exact ⟨finite, whole, by omega⟩

section

variable {α : Type} [Scalar α] [Binary64 α]

theorem number_share (fraction : α) : Binary64.number (share fraction) = share (Binary64.number fraction) := by
  rw [share, share, Binary64.finite_eq, apply_ite Binary64.number, Binary64.number_clamp, Binary64.number_div,
    Binary64.number_zero, Binary64.number_one, Binary64.number_ofNat]

theorem cut_number (n : Nat) (fraction : α) : cut n fraction = cut n (Binary64.number fraction) := by
  rw [cut, cut, Binary64.wholePart_eq, Binary64.number_mul, Binary64.number_ofNat, number_share]

/-! ### The summary -/

/-- Every list of samples but the empty one has a summary, whatever the order of the samples. It averages a
    window of them in their total order. As many are dropped below the window as above it, or none where fewer
    than three would be left. That number is the whole part of the float product of their count and the share,
    for as many samples as a memory can hold: each takes eight bytes, and no object has 2^63 of them. -/
theorem summarize_averages_window (samples : List α) (fraction : α) :
    let n := samples.length
    let c := cut n fraction
    let product := Binary64.number (Scalar.ofNat n * share fraction)
    (summarize samples fraction = .error .noSamples ↔ samples = []) ∧
    (∀ fault, summarize samples fraction = .error fault → samples = []) ∧
    (samples ≠ [] → ∃ low window high,
      (low ++ window ++ high).Perm samples ∧
      (low ++ window ++ high).Pairwise (Scalar.totalLe · · = true) ∧
      low.length = high.length ∧
      (if minimumKept ≤ n - 2 * c then low.length = c ∧ c ≤ n - c ∧ window.length = n - 2 * c
        else low.length = 0 ∧ window.length = n) ∧
      0 < window.length ∧
      summarize samples fraction =
        .ok ⟨Scalar.mean window, Scalar.root (variance (Scalar.mean window) window), window.length, n⟩) ∧
    (∀ others : List α, others.Perm samples → summarize others fraction = summarize samples fraction) ∧
    (n < 2 ^ 60 → product.isFinite ∧ c = ⌊valueOf product⌋₊ ∧ 2 * c < 2 ^ 64) ∧
    valueOf (Binary64.number (share fraction)) =
      if Scalar.finite fraction then max 0 (min (valueOf (Binary64.number fraction)) (1 / 2)) else 0 := by
  intro n c product
  refine ⟨⟨eq_nil_of_error, ?empty⟩, fun fault => eq_nil_of_error, ?window, fun others perm =>
    summarize_eq_of_perm perm fraction, ?floor, ?share⟩
  case empty =>
    rintro rfl
    rfl
  case window =>
    intro present
    obtain ⟨low, high, split, even, dropped⟩ := exists_window samples fraction
    have perm := sorted_perm samples
    have ordered := pairwise_sorted samples
    rw [split] at perm ordered
    refine ⟨low, kept samples fraction, high, perm, ordered, even, ?sizes,
      List.length_pos_iff.2 (kept_ne_nil present fraction), summarize_eq_ok present fraction⟩
    have total := perm.length_eq
    rw [List.length_append, List.length_append] at total
    change if minimumKept ≤ n - 2 * c then low.length = c else low = [] at dropped
    split at dropped
    next enough =>
      rw [if_pos enough]
      rw [minimumKept] at enough
      omega
    next few =>
      rw [if_neg few]
      rw [dropped] at even total ⊢
      simp at even total ⊢
      omega
  case floor =>
    intro memory
    have floor := cut_eq_floor memory (Binary64.number fraction)
    have count : Binary64.number (Scalar.ofNat n : α) = Scalar.ofNat n := Binary64.number_ofNat n
    rw [← cut_number, ← number_share, ← count, ← Binary64.number_mul] at floor
    exact floor
  case share =>
    rw [number_share, (valueOf_share _).2, Binary64.finite_eq]
    rfl

end

/-- Both zeros, a one and two payloads of values that are no number. -/
def mixedSamples : List BitPattern :=
  [⟨0x7ff8000000000002⟩, ⟨0⟩, ⟨0x7ff8000000000001⟩, ⟨0x3ff0000000000000⟩, ⟨0x8000000000000000⟩]

/-- A fifth of the mixed samples is one at each end, while two fifths of three floats would leave too few. -/
theorem summarize_averages_window_mixed :
    (∃ low window high : List BitPattern, (low ++ window ++ high).Perm mixedSamples ∧
      low.length = 1 ∧ window.length = 3 ∧ high.length = 1 ∧
      1 = ⌊valueOf (Binary64.number (Scalar.ofNat 5 * share (BitPattern.ofNumber 0.2)))⌋₊) ∧
    ∃ low window high : List Float, (low ++ window ++ high).Perm [0.0, 0.0 / 0.0, -0.0] ∧
      low.length = 0 ∧ window.length = 3 ∧ high.length = 0 := by
  constructor
  · have size : mixedSamples.length = 5 := rfl
    have one : cut 5 (BitPattern.ofNumber 0.2) = 1 := by decide +kernel
    obtain ⟨-, -, made, -, counted, -⟩ :=
      summarize_averages_window mixedSamples (BitPattern.ofNumber 0.2)
    simp only [size, one] at made counted
    obtain ⟨low, window, high, perm, -, even, sizes, -⟩ := made (List.cons_ne_nil _ _)
    obtain ⟨-, floor, -⟩ := counted (by decide)
    rw [if_pos (by decide)] at sizes
    exact ⟨low, window, high, perm, sizes.1, sizes.2.2, even ▸ sizes.1, floor⟩
  · have size : ([0.0, 0.0 / 0.0, -0.0] : List Float).length = 3 := rfl
    have one : cut 3 (0.4 : Float) = 1 := by decide +kernel
    obtain ⟨-, -, made, -⟩ := summarize_averages_window ([0.0, 0.0 / 0.0, -0.0] : List Float) 0.4
    simp only [size, one] at made
    obtain ⟨low, window, high, perm, -, even, sizes, -⟩ := made (List.cons_ne_nil _ _)
    rw [if_neg (by decide)] at sizes
    exact ⟨low, window, high, perm, sizes.1, sizes.2, even ▸ sizes.1⟩

end CycleCost.Sample
