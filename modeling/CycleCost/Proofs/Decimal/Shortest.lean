/-
Module: CycleCost.Proofs.Decimal.Shortest
Purpose: The shortest digits of a float lie near it. A candidate is only taken when it lies in the interval of
  numbers that round to the float, and with seventeen digits there is always one.
Main exports: exists_units_of_shortest, Digits.ofUnits_wellFormed, Digits.ofUnits_value
-/
import CycleCost.Decimal.Shortest
import CycleCost.Proofs.Decimal.Layout
import CycleCost.Proofs.Decimal.Reading

namespace CycleCost.Decimal

/-! ### The decimal grid -/

section

open Magnitude

variable {size : Magnitude} {unit : Int}

/-- Numbers with one binary exponent, scaled to one decimal unit, have one denominator. -/
theorem exists_scale (power unit : Int) :
    ∃ f d : Nat, 0 < f ∧ 0 < d ∧ (f : ℚ) / d = 2 ^ power * 10 ^ unit ∧
      ∀ n, (shifted n power).scale unit = ⟨n * f, d⟩ := by
  have two (p : Nat) : 0 < Nat.pow 2 p := Nat.pow_pos (by decide)
  have ten (p : Nat) : 0 < Nat.pow 10 p := Nat.pow_pos (by decide)
  cases power with
  | ofNat p =>
    cases unit with
    | ofNat u =>
      refine ⟨Nat.pow 2 p * Nat.pow 10 u, 1, Nat.mul_pos (two p) (ten u), one_pos, ?_, fun n => ?_⟩
      · simp
      · simp [shifted, Quotient.scale, Nat.mul_assoc]
    | negSucc u =>
      refine ⟨Nat.pow 2 p, Nat.pow 10 (u + 1), two p, ten _, ?_, fun n => ?_⟩
      · simp [zpow_negSucc, div_eq_mul_inv]
      · simp [shifted, Quotient.scale]
  | negSucc p =>
    cases unit with
    | ofNat u =>
      refine ⟨Nat.pow 10 u, Nat.pow 2 (p + 1), ten u, two _, ?_, fun n => ?_⟩
      · simp [zpow_negSucc, div_eq_mul_inv, mul_comm]
      · simp [shifted, Quotient.scale]
    | negSucc u =>
      refine ⟨1, Nat.pow 2 (p + 1) * Nat.pow 10 (u + 1), one_pos, Nat.mul_pos (two _) (ten _), ?_,
        fun n => ?_⟩
      · simp [zpow_negSucc, mul_comm]
      · simp [shifted, Quotient.scale]

/-- The interval of a float on a decimal grid: `f / d` is a quarter of its last place in units of the grid. -/
structure Grid (size : Magnitude) (unit : Int) (f d : Nat) : Prop where
  quarter : 0 < f
  denominator : 0 < d
  ratio : (f : ℚ) * 10 ^ unit = d * 2 ^ (size.exponent - 2)
  low : size.nearby.low.scale (-unit) = ⟨(4 * size.mantissa - if size.narrow then 1 else 2) * f, d⟩
  value : size.nearby.value.scale (-unit) = ⟨4 * size.mantissa * f, d⟩
  high : size.nearby.high.scale (-unit) = ⟨(4 * size.mantissa + 2) * f, d⟩

/-- Every float has its interval on every decimal grid. -/
theorem exists_grid (size : Magnitude) (unit : Int) : ∃ f d, Grid size unit f d := by
  obtain ⟨f, d, quarter, denominator, ratio, scaled⟩ := exists_scale (size.exponent - 2) (-unit)
  have cast : (d : ℚ) ≠ 0 := by exact_mod_cast denominator.ne'
  have step : (10 : ℚ) ^ unit ≠ 0 := zpow_ne_zero _ (by norm_num)
  refine ⟨f, d, quarter, denominator, ?_, scaled _, scaled _, scaled _⟩
  rw [div_eq_iff cast, zpow_neg] at ratio
  rw [ratio]
  field_simp

/-- Comparisons on the grid are comparisons of the values. -/
theorem Grid.scaled {f d : Nat} (grid : Grid size unit f d) {a c : Nat} :
    (a * f ≤ c * d ↔ (a : ℚ) * 2 ^ (size.exponent - 2) ≤ c * 10 ^ unit) ∧
      (c * d ≤ a * f ↔ (c : ℚ) * 10 ^ unit ≤ a * 2 ^ (size.exponent - 2)) := by
  have cast : (0 : ℚ) < d := by exact_mod_cast grid.denominator
  have step : (0 : ℚ) < 10 ^ unit := zpow_pos (by norm_num) unit
  have left : (a : ℚ) * 2 ^ (size.exponent - 2) * d = a * f * 10 ^ unit := by
    rw [mul_assoc (a : ℚ) f, grid.ratio]
    ring
  have right : (c : ℚ) * 10 ^ unit * d = c * d * 10 ^ unit := by ring
  constructor
  · rw [← mul_le_mul_iff_left₀ cast, left, right, mul_le_mul_iff_left₀ step]
    exact_mod_cast Iff.rfl
  · rw [← mul_le_mul_iff_left₀ cast, left, right, mul_le_mul_iff_left₀ step]
    exact_mod_cast Iff.rfl

/-- Being near a float, on the grid. -/
theorem Grid.near {f d : Nat} (grid : Grid size unit f d) (canonical : size.Canonical) {c : Nat}
    (low : (4 * size.mantissa - if size.narrow then 1 else 2) * f ≤ c * d)
    (high : c * d ≤ (4 * size.mantissa + 2) * f)
    (edge : size.mantissa % 2 = 1 →
      (4 * size.mantissa - if size.narrow then 1 else 2) * f < c * d ∧ c * d < (4 * size.mantissa + 2) * f) :
    size.Near (c * 10 ^ unit) := by
  have power : (2 : ℚ) ^ size.exponent = 4 * 2 ^ (size.exponent - 2) := by
    rw [zpow_sub₀ two_ne_zero]
    norm_num
    ring
  have below : ((4 * size.mantissa - if size.narrow then 1 else 2 : Nat) : ℚ) * 2 ^ (size.exponent - 2) =
      (size.mantissa - size.slack) * 2 ^ size.exponent := by
    have positive := canonical.positive
    rw [power, slack]
    split
    · rw [Nat.cast_sub (by omega)]
      push_cast
      ring
    · rw [Nat.cast_sub (by omega)]
      push_cast
      ring
  have above : ((4 * size.mantissa + 2 : Nat) : ℚ) * 2 ^ (size.exponent - 2) =
      (size.mantissa + 1 / 2) * 2 ^ size.exponent := by
    rw [power]
    push_cast
    ring
  rw [← not_le, ← not_le] at edge
  rw [grid.scaled.1, below] at low
  rw [grid.scaled.2, above] at high
  rw [grid.scaled.2, grid.scaled.1, below, above, not_le, not_le] at edge
  exact ⟨low, high, edge⟩

/-- The number `c` of the grid lies in the interval of a float, as far as its lower end goes. -/
abbrev ReadsFrom (size : Magnitude) (f d c : Nat) : Prop :=
  if size.mantissa % 2 = 0 then (4 * size.mantissa - if size.narrow then 1 else 2) * f ≤ c * d
  else (4 * size.mantissa - if size.narrow then 1 else 2) * f < c * d

/-- The number `c` of the grid lies in the interval of a float, as far as its upper end goes. -/
abbrev ReadsTo (size : Magnitude) (f d c : Nat) : Prop :=
  if size.mantissa % 2 = 0 then c * d ≤ (4 * size.mantissa + 2) * f
  else c * d < (4 * size.mantissa + 2) * f

section

variable {f d : Nat}

theorem low_lt_value (canonical : size.Canonical) (grid : Grid size unit f d) :
    (4 * size.mantissa - if size.narrow then 1 else 2) * f < 4 * size.mantissa * f := by
  refine Nat.mul_lt_mul_of_pos_right ?_ grid.quarter
  have := canonical.positive
  split <;> omega

theorem value_lt_high (grid : Grid size unit f d) : 4 * size.mantissa * f < (4 * size.mantissa + 2) * f :=
  Nat.mul_lt_mul_of_pos_right (by omega) grid.quarter

/-- A decimal between the ends of the interval reads as the float. -/
theorem Grid.near_of_reads (canonical : size.Canonical) (grid : Grid size unit f d) {c : Nat}
    (above : ReadsFrom size f d c) (below : ReadsTo size f d c) : size.Near (c * 10 ^ unit) := by
  by_cases even : size.mantissa % 2 = 0
  · rw [ReadsFrom, if_pos even] at above
    rw [ReadsTo, if_pos even] at below
    exact grid.near canonical above below fun odd => by omega
  · rw [ReadsFrom, if_neg even] at above
    rw [ReadsTo, if_neg even] at below
    exact grid.near canonical above.le below.le fun _ => ⟨above, below⟩

theorem readsFrom_of_lt {c : Nat}
    (above : (4 * size.mantissa - if size.narrow then 1 else 2) * f < c * d) : ReadsFrom size f d c := by
  by_cases even : size.mantissa % 2 = 0
  · rw [ReadsFrom, if_pos even]
    exact above.le
  · rw [ReadsFrom, if_neg even]
    exact above

theorem readsTo_of_lt {c : Nat} (below : c * d < (4 * size.mantissa + 2) * f) : ReadsTo size f d c := by
  by_cases even : size.mantissa % 2 = 0
  · rw [ReadsTo, if_pos even]
    exact below.le
  · rw [ReadsTo, if_neg even]
    exact below

/-- The two neighbours of the value on the grid are the only candidates, and each is checked on its side. -/
theorem candidate_eq_some (grid : Grid size unit f d) {tie : Tie} {c : Nat}
    (taken : candidate tie size.nearby unit = some c) :
    (c = 4 * size.mantissa * f / d ∧ ReadsFrom size f d c) ∨
      (c = 4 * size.mantissa * f / d + 1 ∧ ReadsTo size f d c) := by
  have closed : size.nearby.closed = decide (size.mantissa % 2 = 0) := rfl
  unfold candidate at taken
  simp only [grid.low, grid.value, grid.high, Quotient.floor, closed, decide_eq_true_eq,
    Bool.and_eq_true] at taken
  generalize 4 * size.mantissa * f / d = below at taken ⊢
  by_cases both : ReadsFrom size f d below ∧ ReadsTo size f d (below + 1)
  · rw [if_pos both] at taken
    have either : c = below ∨ c = below + 1 := by grind
    rcases either with rfl | rfl
    · exact .inl ⟨rfl, both.1⟩
    · exact .inr ⟨rfl, both.2⟩
  · rw [if_neg both] at taken
    by_cases lower : ReadsFrom size f d below
    · rw [if_pos lower] at taken
      cases taken
      exact .inl ⟨rfl, lower⟩
    · rw [if_neg lower] at taken
      by_cases upper : ReadsTo size f d (below + 1)
      · rw [if_pos upper] at taken
        cases taken
        exact .inr ⟨rfl, upper⟩
      · rw [if_neg upper] at taken
        cases taken

/-- Where a neighbour on the grid reads as the float there is a candidate. -/
theorem candidate_ne_none (grid : Grid size unit f d) (tie : Tie)
    (reads : ReadsFrom size f d (4 * size.mantissa * f / d) ∨
      ReadsTo size f d (4 * size.mantissa * f / d + 1)) :
    candidate tie size.nearby unit ≠ none := by
  have closed : size.nearby.closed = decide (size.mantissa % 2 = 0) := rfl
  unfold candidate
  simp only [grid.low, grid.value, grid.high, Quotient.floor, closed, decide_eq_true_eq, Bool.and_eq_true]
  generalize 4 * size.mantissa * f / d = below at reads ⊢
  by_cases both : ReadsFrom size f d below ∧ ReadsTo size f d (below + 1)
  · rw [if_pos both]
    grind
  · rw [if_neg both]
    by_cases lower : ReadsFrom size f d below
    · rw [if_pos lower]
      nofun
    · rw [if_neg lower, if_pos (reads.resolve_left lower)]
      nofun

/-- A candidate is a positive number of units that is near the float. -/
theorem candidate_near (canonical : size.Canonical) {tie : Tie} {c : Nat}
    (taken : candidate tie size.nearby unit = some c) : 0 < c ∧ size.Near (c * 10 ^ unit) := by
  obtain ⟨f, d, grid⟩ := exists_grid size unit
  have low := low_lt_value canonical grid
  have high := value_lt_high grid
  have first : 0 < (4 * size.mantissa - if size.narrow then 1 else 2) * f := by
    refine Nat.mul_pos ?_ grid.quarter
    have := canonical.positive
    split <;> omega
  have floor : 4 * size.mantissa * f / d * d ≤ 4 * size.mantissa * f := Nat.div_mul_le_self _ d
  have next : 4 * size.mantissa * f < (4 * size.mantissa * f / d + 1) * d :=
    Nat.lt_mul_of_div_lt (Nat.lt_succ_self _) grid.denominator
  rcases candidate_eq_some grid taken with ⟨rfl, above⟩ | ⟨rfl, below⟩
  · have reached : 0 < 4 * size.mantissa * f / d * d := by
      by_cases even : size.mantissa % 2 = 0
      · rw [ReadsFrom, if_pos even] at above
        exact first.trans_le above
      · rw [ReadsFrom, if_neg even] at above
        exact first.trans above
    exact ⟨Nat.pos_of_mul_pos_right reached,
      grid.near_of_reads canonical above (readsTo_of_lt (floor.trans_lt high))⟩
  · exact ⟨Nat.succ_pos _, grid.near_of_reads canonical (readsFrom_of_lt (low.trans next)) below⟩

/-- With seventeen digits the units are so small that a neighbour of the value is near the float. -/
theorem candidate_of_fine (canonical : size.Canonical) (tie : Tie)
    (fine : (10 : ℚ) ^ 16 * 10 ^ unit ≤ size.mantissa * 2 ^ size.exponent) :
    candidate tie size.nearby unit ≠ none := by
  obtain ⟨f, d, grid⟩ := exists_grid size unit
  refine candidate_ne_none grid tie ?_
  have reached : 10 ^ 16 * d ≤ 4 * size.mantissa * f := by
    have power : (size.mantissa : ℚ) * 2 ^ size.exponent =
        (4 * size.mantissa : Nat) * 2 ^ (size.exponent - 2) := by
      rw [zpow_sub₀ two_ne_zero]
      push_cast
      ring
    rw [power] at fine
    exact (grid.scaled (a := 4 * size.mantissa) (c := 10 ^ 16)).2.2 (by exact_mod_cast fine)
  have floor : 4 * size.mantissa * f / d * d ≤ 4 * size.mantissa * f := Nat.div_mul_le_self _ d
  have next : 4 * size.mantissa * f < (4 * size.mantissa * f / d + 1) * d :=
    Nat.lt_mul_of_div_lt (Nat.lt_succ_self _) grid.denominator
  rw [Nat.succ_mul] at next
  have quarter := grid.quarter
  have small : 4 * size.mantissa * f ≤ 4 * 2 ^ 53 * f :=
    Nat.mul_le_mul_right _ (Nat.mul_le_mul_left _ canonical.small.le)
  by_cases closer : 2 * (4 * size.mantissa * f / d * d + d - 4 * size.mantissa * f) ≤ d
  · refine .inr (readsTo_of_lt ?_)
    rw [Nat.succ_mul, Nat.add_mul]
    omega
  · refine .inl (readsFrom_of_lt ?_)
    rw [Nat.sub_mul]
    split
    case isTrue narrow =>
      -- The narrow gap is half as long, but the value has the least mantissa there.
      rw [(canonical.narrow.1 narrow).1] at *
      omega
    case isFalse => omega

end

/-! ### The search -/

/-- The leading place is not above the first digit. -/
theorem ten_zpow_leadingPlace_le {q : Quotient} (num : 0 < q.num) (den : 0 < q.den) :
    (10 : ℚ) ^ q.leadingPlace ≤ q.num / q.den := by
  have cast : (0 : ℚ) < q.den := by exact_mod_cast den
  rw [le_div_iff₀ cast, Quotient.leadingPlace]
  split
  case isTrue whole =>
    have positive : 0 < q.num / q.den := Nat.div_pos whole den
    have count := digitCount_pos positive
    have exponent : (digitCount (q.num / q.den) : Int) - 1 = (digitCount (q.num / q.den) - 1 : Nat) := by
      omega
    have reached : 10 ^ (digitCount (q.num / q.den) - 1) * q.den ≤ q.num :=
      (Nat.mul_le_mul_right _ (ten_pow_digitCount_le positive)).trans (Nat.div_mul_le_self _ _)
    rw [exponent, zpow_natCast]
    exact_mod_cast reached
  case isFalse =>
    have reached : q.den ≤ 10 ^ digitCount ((q.den - 1) / q.num) * q.num := by
      have bound := Nat.lt_mul_of_div_lt (lt_ten_pow_digitCount ((q.den - 1) / q.num)) num
      omega
    have step : (0 : ℚ) < 10 ^ digitCount ((q.den - 1) / q.num) := by positivity
    rw [zpow_neg, zpow_natCast, inv_mul_le_iff₀ step]
    exact_mod_cast reached

theorem exists_shifted (n : Nat) (power : Int) :
    0 < (shifted n power).den ∧ ((shifted n power).num : ℚ) / (shifted n power).den = n * 2 ^ power ∧
      (0 < n → 0 < (shifted n power).num) := by
  cases power with
  | ofNat p =>
    refine ⟨one_pos, by simp [shifted], fun positive => ?_⟩
    exact Nat.mul_pos positive (Nat.pow_pos (by decide))
  | negSucc p =>
    refine ⟨Nat.pow_pos (by decide), ?_, fun positive => positive⟩
    simp [shifted, zpow_negSucc, div_eq_mul_inv]

/-- The shortest digits are a number of units near the float. -/
theorem exists_units_of_shortest (canonical : size.Canonical) (tie : Tie) :
    ∃ (c : Nat) (unit : Int), 0 < c ∧ size.Near (c * 10 ^ unit) ∧ shortest tie size = .ofUnits c unit := by
  have place : (10 : ℚ) ^ size.nearby.value.leadingPlace ≤ size.mantissa * 2 ^ size.exponent := by
    have parts := exists_shifted (4 * size.mantissa) (size.exponent - 2)
    have bound := ten_zpow_leadingPlace_le (q := size.nearby.value)
      (parts.2.2 (by have := canonical.positive; omega)) parts.1
    refine bound.trans_eq (parts.2.1.trans ?_)
    rw [zpow_sub₀ two_ne_zero]
    push_cast
    ring
  unfold shortest
  dsimp only
  split
  case h_1 digits found =>
    obtain ⟨count, _, taken⟩ := List.exists_of_findSome?_eq_some found
    obtain ⟨c, candidate, rfl⟩ := Option.map_eq_some_iff.1 taken
    have near := candidate_near canonical candidate
    exact ⟨c, _, near.1, near.2, rfl⟩
  case h_2 missing =>
    have last := List.findSome?_eq_none_iff.1 missing 16 (by decide)
    refine absurd (Option.map_eq_none_iff.1 last) (candidate_of_fine canonical tie ?_)
    have split : (10 : ℚ) ^ 16 * 10 ^ (size.nearby.value.leadingPlace - (16 : Nat)) =
        10 ^ size.nearby.value.leadingPlace := by
      rw [zpow_sub₀ (by norm_num), zpow_natCast]
      field_simp
    rw [split]
    exact place

end

/-! ### The digits -/

namespace Digits

variable {n : Nat} {unit : Int}

/-- Only zeros are taken off the end. -/
theorem exists_zeros (text : List Char) :
    ∃ k, text = (text.reverse.dropWhile (· == '0')).reverse ++ zeros k := by
  refine ⟨(text.reverse.takeWhile (· == '0')).length, ?_⟩
  have same : (text.reverse.takeWhile (· == '0')).reverse =
      zeros (text.reverse.takeWhile (· == '0')).length := by
    rw [zeros, List.eq_replicate_iff]
    refine ⟨List.length_reverse, fun c there => ?_⟩
    simpa using List.all_eq_true.1 List.all_takeWhile c (List.mem_reverse.1 there)
  rw [← same, ← List.reverse_append, List.takeWhile_append_dropWhile, List.reverse_reverse]

/-- The digits of a count of units are its printed digits without the zeros at the end. -/
theorem ofUnits_eq (n : Nat) (unit : Int) :
    ∃ k, n.repr.toList = (ofUnits n unit).digits ++ zeros k ∧ (ofUnits n unit).unit = unit + k := by
  obtain ⟨k, text⟩ := exists_zeros n.repr.toList
  refine ⟨k, text, ?_⟩
  have length := congrArg List.length text
  rw [List.length_append, zeros, List.length_replicate] at length
  change unit + n.repr.toList.length - 1 + 1 - (ofUnits n unit).digits.length = _
  change _ = (ofUnits n unit).digits.length + k at length
  omega

/-- The digits of a number of units are worth this number. -/
theorem ofUnits_value (n : Nat) (unit : Int) :
    (digitsValue (ofUnits n unit).digits : ℚ) * 10 ^ (ofUnits n unit).unit = n * 10 ^ unit := by
  obtain ⟨k, text, place⟩ := ofUnits_eq n unit
  have value := congrArg digitsValue text
  rw [digitsValue_repr, digitsValue_append, zeros, digitsValue_replicate_zero, List.length_replicate,
    Nat.add_zero] at value
  rw [place, zpow_add₀ (by norm_num), zpow_natCast]
  generalize digitsValue (ofUnits n unit).digits = v at value ⊢
  rw [value]
  push_cast
  ring

theorem ofUnits_wellFormed (positive : 0 < n) (unit : Int) : (ofUnits n unit).WellFormed := by
  obtain ⟨k, text, _⟩ := ofUnits_eq n unit
  have nonempty : (ofUnits n unit).digits ≠ [] := by
    intro empty
    have value := congrArg digitsValue text
    rw [empty, digitsValue_repr, List.nil_append, zeros, digitsValue_replicate_zero] at value
    omega
  refine ⟨nonempty, fun c there => ?_, ?_⟩
  · refine isDigit_of_mem_repr (n := n) ?_
    rw [text]
    exact List.mem_append_left _ there
  · have front := head_repr_ne_zero positive
    obtain ⟨c, tail, shape⟩ := List.exists_cons_of_ne_nil nonempty
    rw [text, shape] at front
    rw [shape]
    exact front

end Digits

end CycleCost.Decimal
