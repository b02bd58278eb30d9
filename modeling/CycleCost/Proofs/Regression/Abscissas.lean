/-
Module: CycleCost.Proofs.Regression.Abscissas
Purpose: The counts of a series as the floats that a fit is given. Reading a count keeps 53 binary digits, so short
  counts stay as they are and different, and longer ones are moved by at most 1024 to a whole number. A fit counts
  the numbers after reading.
Main exports: readAs, abs_readAs_sub_le, readAs_ne_of_far, exists_int_readAs, card_image_readAs,
  Series.distinctCount_abscissas, Series.refused_tooFewPoints_iff
-/
import CycleCost.Proofs.Arithmetic.Rounded
import CycleCost.Proofs.Regression.Acceptance

namespace CycleCost

open Binary64 Decimal Regression

/-! ### Counts read as floats -/

/-- The number that a count of instructions is read as. -/
def readAs (work : UInt64) : ℚ := rounded work.toNat

/-- Amounts of work up to 2^53 are read exactly. -/
theorem readAs_of_short {work : UInt64} (short : work.toNat ≤ 2 ^ 53) : readAs work = work.toNat :=
  rounded_natCast short

/-- The last place of a count of 64 bits is at most its eleventh. -/
theorem lastPlace_natCast_le {n : Nat} (small : n < 2 ^ 64) : lastPlace n ≤ 11 := by
  rcases Nat.eq_zero_or_pos n with rfl | positive
  · simp [lastPlace]
  · have below : |(n : ℚ)| < ((2 : Nat) : ℚ) ^ (64 : Int) := by
      rw [Nat.abs_cast]
      exact_mod_cast small
    have log : Int.log 2 |(n : ℚ)| < 64 :=
      (Int.lt_zpow_iff_log_lt one_lt_two (abs_pos.2 (Nat.cast_ne_zero.2 positive.ne'))).1 below
    rw [lastPlace]
    omega

/-- No amount of work is read further off than 1024. -/
theorem abs_readAs_sub_le (work : UInt64) : |readAs work - work.toNat| ≤ 1024 := by
  have place : (2 : ℚ) ^ lastPlace work.toNat ≤ 2 ^ (11 : Int) :=
    zpow_le_zpow_right₀ one_le_two (lastPlace_natCast_le work.toNat_lt)
  calc |readAs work - work.toNat| ≤ 2 ^ lastPlace work.toNat / 2 := abs_rounded_sub_le_place _
    _ ≤ 2 ^ (11 : Int) / 2 := div_le_div_of_nonneg_right place zero_le_two
    _ = 1024 := by norm_num

theorem readAs_nonneg (work : UInt64) : 0 ≤ readAs work := rounded_nonneg (Nat.cast_nonneg _)

theorem readAs_le (work : UInt64) : readAs work ≤ 2 ^ (64 : Int) := by
  have whole : rounded (2 ^ (64 : Int)) = 2 ^ (64 : Int) := by
    simpa using rounded_eq_self_of_short (n := 1) (e := 64) (by decide) (by decide)
  have below : (work.toNat : ℚ) ≤ 2 ^ (64 : Int) := by exact_mod_cast work.toNat_lt.le
  exact (rounded_le_rounded below).trans_eq whole

/-- A count is read as a whole number: what is cut off are whole units. -/
theorem exists_int_readAs (work : UInt64) : ∃ n : Int, readAs work = n := by
  rcases le_total work.toNat (2 ^ 53) with short | long
  · exact ⟨work.toNat, by rw [readAs_of_short short, Int.cast_natCast]⟩
  · have positive : (0 : ℚ) < work.toNat := Nat.cast_pos.2 (Nat.two_pow_pos 53 |>.trans_le long)
    have reached : ((2 : Nat) : ℚ) ^ (53 : Int) ≤ work.toNat := by exact_mod_cast long
    have log : 53 ≤ Int.log 2 (work.toNat : ℚ) := (Int.zpow_le_iff_le_log one_lt_two positive).1 reached
    obtain ⟨place, same⟩ : ∃ place : Nat, lastPlace work.toNat = place := by
      apply Int.eq_ofNat_of_zero_le
      rw [lastPlace, abs_of_pos positive]
      omega
    refine ⟨nearestEven (work.toNat / 2 ^ lastPlace work.toNat) * 2 ^ place, ?_⟩
    rw [readAs, rounded, same]
    push_cast
    rw [zpow_natCast]

/-- Counts that are far apart are read as different floats. -/
theorem readAs_ne_of_far {u v : UInt64} (far : u.toNat + 2048 < v.toNat) : readAs u ≠ readAs v := by
  intro same
  have low := (abs_le.1 (abs_readAs_sub_le u)).2
  have high := (abs_le.1 (abs_readAs_sub_le v)).1
  have apart : (u.toNat : ℚ) + 2048 < v.toNat := by exact_mod_cast far
  rw [same] at low
  linarith

/-- Short counts are read as they are, so different ones stay different. -/
theorem card_image_readAs {work : Finset UInt64} (short : ∀ w ∈ work, w.toNat ≤ 2 ^ 53) :
    (work.image readAs).card = work.card := by
  apply Finset.card_image_of_injOn
  intro u first v second same
  rw [readAs_of_short (short u first), readAs_of_short (short v second)] at same
  exact UInt64.toNat_inj.1 (Nat.cast_injective same)

theorem toFinset_map_readAs (list : List UInt64) : (list.map readAs).toFinset = list.toFinset.image readAs := by
  ext r
  simp

variable {α : Type} [Scalar α] [Binary64 α]

/-- An amount of work becomes a finite number, of the value it is read as. -/
theorem value_ofNat (work : UInt64) :
    Scalar.finite (Scalar.ofNat work.toNat : α) = true ∧ value (Scalar.ofNat work.toNat : α) = readAs work := by
  have read := valueOf_ofNat work.toNat_lt
  rw [finite_iff, value, number_ofNat]
  exact read

/-! ### The abscissas of a series -/

namespace Series

variable {series : Series α}

/-- The abscissas of a series are finite, whatever work was measured. -/
theorem finite_abscissas (series : Series α) : ∀ u ∈ series.abscissas, Scalar.finite u = true := by
  intro u member
  obtain ⟨o, -, rfl⟩ := List.mem_map.1 member
  exact (value_ofNat o.workUnits).1

/-- The values that a fit is given are the counts as they are read. -/
theorem map_value_abscissas (series : Series α) :
    series.abscissas.map value = (series.observations.map (·.workUnits)).map readAs := by
  rw [abscissas, List.map_map, List.map_map]
  apply List.map_congr_left
  intro o _
  exact (value_ofNat o.workUnits).2

/-- A fit counts the different floats that the counts are read as. -/
theorem distinctCount_abscissas (series : Series α) :
    distinctCount series.abscissas = ((series.observations.map (·.workUnits)).toFinset.image readAs).card := by
  rw [distinctCount_eq_card series.finite_abscissas, map_value_abscissas, toFinset_map_readAs]

omit [Binary64 α] in
theorem length_abscissas (series : Series α) : series.abscissas.length = series.ordinates.length := by
  rw [abscissas, ordinates, List.length_map, List.length_map]

/-- A series that is not empty is refused for its abscissas when all of them are one number. -/
theorem refused_tooFewPoints_iff (present : series.observations ≠ []) {distinct required : Nat} :
    Refused series.abscissas series.ordinates (.tooFewPoints distinct required) ↔
      ((series.observations.map (·.workUnits)).toFinset.image readAs).card = 1 ∧
        (∀ v ∈ series.ordinates, Scalar.finite v = true) ∧ distinct = 1 ∧ required = 2 := by
  have count : (series.abscissas.map value).toFinset.card =
      ((series.observations.map (·.workUnits)).toFinset.image readAs).card := by
    rw [map_value_abscissas, toFinset_map_readAs]
  have some : 0 < (series.abscissas.map value).toFinset.card := by
    rw [Finset.card_pos, List.toFinset_nonempty_iff, map_value_abscissas]
    simpa using present
  rw [← count]
  constructor
  · intro refused
    cases refused with
    | level paired work time same =>
      have one : (series.abscissas.map value).toFinset.card = 1 :=
        Nat.le_antisymm (Nat.le_of_lt_succ (card_key_lt_two_iff.2 same)) some
      exact ⟨one, time, one, rfl⟩
  · rintro ⟨one, time, rfl, rfl⟩
    have same := card_key_lt_two_iff.1 (one.trans_lt Nat.one_lt_two)
    rw [← one]
    exact .level series.length_abscissas series.finite_abscissas time same

end Series

end CycleCost
