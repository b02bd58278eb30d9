/-
Module: CycleCost.Proofs.Decimal.Rounding
Purpose: What rounding to binary64 gives, over the rationals. A mantissa with its round bit and sticky bit
  describes a number up to what rounding needs; shifting keeps that, and the rounded mantissa of a number
  near a float is the mantissa of this float.
Main exports: Describes, Magnitude.Canonical, Magnitude.Near, roundWithAccuracy_eq, roundWithAccuracy_near
-/
import CycleCost.Decimal.Binary
import Mathlib

namespace CycleCost.Decimal

open Float.Model Float.Model.UnpackedFloat

/-! ### Residual bits -/

/-- What the round bit and the sticky bit say about the part below the mantissa. -/
def Residue (roundBit stickyBit : Bool) (part : ℚ) : Prop :=
  match roundBit, stickyBit with
  | false, false => part = 0
  | false, true => 0 < part ∧ part < 1 / 2
  | true, false => part = 1 / 2
  | true, true => 1 / 2 < part ∧ part < 1

/-- The mantissa is the whole part of the number, and its residual bits describe the rest. -/
def Describes (em : ExtendedMantissa) (y : ℚ) : Prop :=
  Residue em.roundBit em.stickyBit (y - em.mantissa)

variable {em : ExtendedMantissa} {y : ℚ}

theorem Describes.le (describes : Describes em y) : (em.mantissa : ℚ) ≤ y := by
  rcases em with ⟨m, _ | _, _ | _⟩ <;> simp only [Describes, Residue] at describes ⊢ <;> linarith

theorem Describes.lt (describes : Describes em y) : y < em.mantissa + 1 := by
  rcases em with ⟨m, _ | _, _ | _⟩ <;> simp only [Describes, Residue] at describes ⊢ <;> linarith

theorem Describes.shiftRightOne (describes : Describes em y) : Describes em.shiftRightOne (y / 2) := by
  rcases em with ⟨m, roundBit, stickyBit⟩
  rcases Nat.even_or_odd' m with ⟨k, rfl | rfl⟩
  · have half : 2 * k / 2 = k := by omega
    cases roundBit <;> cases stickyBit <;>
      simp [Describes, Residue, ExtendedMantissa.shiftRightOne, half] at describes ⊢ <;>
      (try constructor) <;> linarith
  · have half : (2 * k + 1) / 2 = k := by omega
    have odd : (2 * k + 1) % 2 = 1 := by omega
    cases roundBit <;> cases stickyBit <;>
      simp [Describes, Residue, ExtendedMantissa.shiftRightOne, half, odd] at describes ⊢ <;>
      (try constructor) <;> linarith

/-- A mantissa shifted right describes the value divided by the power of two. -/
theorem Describes.shiftRight (describes : Describes em y) (n : Nat) : Describes (em >>> n) (y / 2 ^ n) := by
  change Describes (n.repeat ExtendedMantissa.shiftRightOne em) (y / 2 ^ n)
  induction n with
  | zero => simpa [Nat.repeat] using describes
  | succ n ih =>
    have next := ih.shiftRightOne
    rwa [div_div, ← pow_succ] at next

/-- A number within half of a whole one rounds to it, and at exactly half when the whole one is even. -/
theorem Describes.roundedMantissa (describes : Describes em y) {n : Nat}
    (low : (n : ℚ) - 1 / 2 ≤ y) (high : y ≤ n + 1 / 2)
    (edge : n % 2 = 1 → (n : ℚ) - 1 / 2 < y ∧ y < n + 1 / 2) : em.roundedMantissa = n := by
  have near : em.mantissa = n ∨ em.mantissa + 1 = n := by
    have below : (em.mantissa : ℚ) < n + 1 := by linarith [describes.le]
    have above : (n : ℚ) < em.mantissa + 2 := by linarith [describes.lt]
    have : em.mantissa < n + 1 := by exact_mod_cast below
    have : n < em.mantissa + 2 := by exact_mod_cast above
    omega
  rcases em with ⟨m, roundBit, stickyBit⟩
  dsimp only at near
  have same : m = n → (m : ℚ) = n := fun h => by exact_mod_cast h
  have next : m + 1 = n → (m : ℚ) + 1 = n := fun h => by exact_mod_cast h
  cases roundBit with
  | false =>
    -- The number lies in the lower half of its step, so the whole number next to it is its whole part.
    have part : y - m < 1 / 2 := by
      cases stickyBit <;> simp only [Describes, Residue] at describes <;> linarith
    have whole : m = n := near.resolve_right fun h => by linarith [next h]
    cases stickyBit <;> exact whole
  | true =>
    cases stickyBit with
    | true =>
      simp only [Describes, Residue] at describes
      exact near.resolve_left fun h => by linarith [same h]
    | false =>
      simp only [Describes, Residue] at describes
      have even : n % 2 = 0 := by
        by_contra odd
        have inside := edge (by omega)
        rcases near with h | h
        · linarith [same h]
        · linarith [next h]
      change m + m % 2 = n
      omega

/-! ### The exponent of the result -/

theorem targetExponent_eq (k : Int) : Format.binary64.targetExponent k = max (k - 53) (-1074) := rfl

theorem two_zpow_pos (k : Int) : (0 : ℚ) < 2 ^ k := zpow_pos two_pos k

theorem div_two_zpow_lt {r : ℚ} {e k : Int} : r / 2 ^ e < 2 ^ k ↔ r < 2 ^ (k + e) := by
  rw [div_lt_iff₀ (two_zpow_pos e), zpow_add₀ two_ne_zero]

theorem le_div_two_zpow {r : ℚ} {e k : Int} : 2 ^ k ≤ r / 2 ^ e ↔ 2 ^ (k + e) ≤ r := by
  rw [le_div_iff₀ (two_zpow_pos e), zpow_add₀ two_ne_zero]

section

variable {m : Nat} {e : Int} {accuracy : Accuracy} {r : ℚ}

/-- The exponent of the result, and the step of the floats around the number. -/
def target (m : Nat) (e : Int) : Int := Format.binary64.targetExponent (totalExponent m e)

@[simp] theorem mantissa_ofMantissaAndAccuracy (m : Nat) (accuracy : Accuracy) :
    (ExtendedMantissa.ofMantissaAndAccuracy m accuracy).mantissa = m := by
  unfold ExtendedMantissa.ofMantissaAndAccuracy
  split <;> rfl

theorem least_le_target (m : Nat) (e : Int) : -1074 ≤ target m e := le_max_right _ _

/-- A value has at most 53 places above its target exponent. -/
theorem lt_target (describes : Describes (.ofMantissaAndAccuracy m accuracy) (r / 2 ^ e)) :
    r < 2 ^ (53 + target m e) := by
  have whole := describes.lt
  rw [mantissa_ofMantissaAndAccuracy] at whole
  have size : m + 1 ≤ 2 ^ (m.log2 + 1) := Nat.lt_log2_self
  have cast : (m : ℚ) + 1 ≤ 2 ^ ((m.log2 + 1 : Nat) : Int) := by exact_mod_cast size
  have bound := div_two_zpow_lt.1 (whole.trans_le cast)
  have exponents : ((m.log2 + 1 : Nat) : Int) + e ≤ 53 + target m e := by
    simp only [target, targetExponent_eq, totalExponent]
    omega
  exact bound.trans_le (zpow_le_zpow_right₀ one_le_two exponents)

/-- A value fills its 53 places unless the target exponent is the least. -/
theorem target_le (describes : Describes (.ofMantissaAndAccuracy m accuracy) (r / 2 ^ e))
    (fits : e ≤ target m e) : target m e = -1074 ∨ 2 ^ (52 + target m e) ≤ r := by
  by_cases zero : m = 0
  · left
    simp only [target, targetExponent_eq, totalExponent, zero, Nat.log2_zero] at fits ⊢
    omega
  · have whole := describes.le
    rw [mantissa_ofMantissaAndAccuracy] at whole
    have size : 2 ^ m.log2 ≤ m := Nat.log2_self_le zero
    have cast : (2 : ℚ) ^ (m.log2 : Int) ≤ m := by exact_mod_cast size
    have bound := le_div_two_zpow.1 (cast.trans whole)
    rcases eq_or_ne (target m e) (-1074) with least | above
    · exact .inl least
    · refine .inr (le_trans (zpow_le_zpow_right₀ one_le_two ?_) bound)
      simp only [target, targetExponent_eq, totalExponent] at above ⊢
      omega

/-- The result of a rounding to the mantissa `n`: a mantissa that has become too long is halved. -/
def settled (s : Sign) (n : Nat) (t : Int) : UnpackedFloat :=
  if zero : n = 0 then .zero s
  else if n < 2 ^ 53 then .finite s n t (Nat.pos_of_ne_zero zero)
  else .finite s (2 ^ 52) (t + 1) (by decide)

/-- A mantissa within the precision stays as it is. -/
theorem shiftToTargetExponent_of_le {n : Nat} {t : Int} (small : n < 2 ^ 53) (least : -1074 ≤ t) :
    (shiftToTargetExponent Format.binary64 n t .exact) = (⟨n, false, false⟩, t) := by
  have log : n.log2 < 53 := by
    by_cases zero : n = 0
    · simp [zero]
    · exact (Nat.log2_lt zero).2 small
  have stays : (Format.binary64.targetExponent (totalExponent n t) - t).toNat = 0 := by
    rw [targetExponent_eq, totalExponent]
    omega
  rw [shiftToTargetExponent, shiftToExponent, stays]
  simp [ExtendedMantissa.ofMantissaAndAccuracy, HShiftRight.hShiftRight, Nat.repeat]

/-- A mantissa rounded up to the next power of two moves its exponent by one. -/
theorem shiftToTargetExponent_top {t : Int} (least : -1074 ≤ t) :
    (shiftToTargetExponent Format.binary64 (2 ^ 53) t .exact) = (⟨2 ^ 52, false, false⟩, t + 1) := by
  have once : (Format.binary64.targetExponent (totalExponent (2 ^ 53) t) - t).toNat = 1 := by
    rw [targetExponent_eq, totalExponent, Nat.log2_two_pow]
    omega
  rw [shiftToTargetExponent, shiftToExponent, once]
  rfl

theorem roundedMantissa_le (em : ExtendedMantissa) : em.roundedMantissa ≤ em.mantissa + 1 := by
  rcases em with ⟨m, _ | _, _ | _⟩ <;>
    simp [ExtendedMantissa.roundedMantissa, ExtendedMantissa.accuracy, Accuracy.roundToNearestEven]
  omega

theorem le_roundedMantissa (em : ExtendedMantissa) : em.mantissa ≤ em.roundedMantissa := by
  rcases em with ⟨m, _ | _, _ | _⟩ <;>
    simp [ExtendedMantissa.roundedMantissa, ExtendedMantissa.accuracy, Accuracy.roundToNearestEven]

/-- A mantissa within the precision rounds to the next power of two at most. -/
theorem Describes.roundedMantissa_small {em : ExtendedMantissa} {t : Int} (describes : Describes em (r / 2 ^ t))
    (above : r < 2 ^ (53 + t)) : em.roundedMantissa ≤ 2 ^ 53 := by
  rw [← div_two_zpow_lt] at above
  have short : em.mantissa < 2 ^ 53 := by exact_mod_cast describes.le.trans_lt above
  have next := roundedMantissa_le em
  omega

/-- Rounding looks at the number once, at the exponent of the result. -/
theorem roundWithAccuracy_eq (s : Sign)
    (describes : Describes (.ofMantissaAndAccuracy m accuracy) (r / 2 ^ e)) (fits : e ≤ target m e) :
    ∃ em, Describes em (r / 2 ^ target m e) ∧
      roundWithAccuracy .binary64 s m e accuracy = settled s em.roundedMantissa (target m e) := by
  have shift : ((target m e - e).toNat : Int) = target m e - e := by omega
  have shifted := describes.shiftRight (target m e - e).toNat
  rw [← zpow_natCast, shift, zpow_sub₀ two_ne_zero, div_div_div_cancel_right₀ (two_zpow_pos e).ne'] at shifted
  refine ⟨_, shifted, ?_⟩
  generalize moved : ExtendedMantissa.ofMantissaAndAccuracy m accuracy >>> (target m e - e).toNat = em
    at shifted
  have first : shiftToTargetExponent .binary64 m e accuracy = (em, target m e) := by
    rw [shiftToTargetExponent, shiftToExponent, ← target, moved, shift]
    simp
  have small : em.mantissa < 2 ^ 53 := by
    have bound := lt_target describes
    rw [← div_two_zpow_lt] at bound
    have cast : (em.mantissa : ℚ) < ((2 ^ 53 : Nat) : ℚ) := shifted.le.trans_lt (by exact_mod_cast bound)
    exact_mod_cast cast
  have top := roundedMantissa_le em
  rw [roundWithAccuracy, first]
  unfold settled
  dsimp only
  by_cases below : em.roundedMantissa < 2 ^ 53
  · rw [shiftToTargetExponent_of_le below (least_le_target m e)]
    simp only [below, if_true]
  · have exact : em.roundedMantissa = 2 ^ 53 := by omega
    rw [exact, shiftToTargetExponent_top (least_le_target m e)]
    rfl

end

/-! ### The numbers around a float -/

namespace Magnitude

/-- A size as binary64 has it: of the ways to write the number, the one with the longest mantissa that the
    least exponent allows. -/
structure Canonical (size : Magnitude) : Prop where
  positive : 0 < size.mantissa
  small : size.mantissa < 2 ^ 53
  least : -1074 ≤ size.exponent
  most : size.exponent ≤ 971
  full : size.exponent = -1074 ∨ 2 ^ 52 ≤ size.mantissa
  narrow : size.narrow = true ↔ size.mantissa = 2 ^ 52 ∧ -1074 < size.exponent

/-- How far below the float the numbers reach that round to it, in its last place. -/
def slack (size : Magnitude) : ℚ := if size.narrow then 1 / 4 else 1 / 2

/-- The numbers that round to the float: up to half a step away, and exactly that only when the mantissa is
    even. -/
structure Near (size : Magnitude) (r : ℚ) : Prop where
  low : (size.mantissa - size.slack) * 2 ^ size.exponent ≤ r
  high : r ≤ (size.mantissa + 1 / 2) * 2 ^ size.exponent
  edge : size.mantissa % 2 = 1 →
    (size.mantissa - size.slack) * 2 ^ size.exponent < r ∧ r < (size.mantissa + 1 / 2) * 2 ^ size.exponent

variable {size : Magnitude} {r : ℚ}

theorem slack_le (size : Magnitude) : size.slack ≤ 1 / 2 := by
  unfold slack
  split <;> norm_num

/-- A number near a float has the exponent of the float, or the one below it when it lies in the narrow
    gap. -/
theorem Near.exponent (near : size.Near r) (canonical : size.Canonical) {t : Int} (least : -1074 ≤ t)
    (above : r < 2 ^ (53 + t)) (below : t = -1074 ∨ 2 ^ (52 + t) ≤ r) :
    t = size.exponent ∨ (size.narrow ∧ t = size.exponent - 1) := by
  have step := two_zpow_pos size.exponent
  have scaled (k : Nat) : (2 : ℚ) ^ k * 2 ^ size.exponent = 2 ^ (k + size.exponent) := by
    rw [zpow_add₀ two_ne_zero, zpow_natCast]
  have upper : t ≤ size.exponent := by
    rcases below with bottom | reached
    · exact bottom ▸ canonical.least
    · have whole : (size.mantissa : ℚ) + 1 ≤ 2 ^ 53 := by exact_mod_cast canonical.small
      have top : r < 2 ^ (((53 : Nat) : Int) + size.exponent) := by
        rw [← scaled]
        exact near.high.trans_lt (mul_lt_mul_of_pos_right (by linarith) step)
      have := (zpow_lt_zpow_iff_right₀ one_lt_two).1 (reached.trans_lt top)
      omega
  rcases upper.eq_or_lt with same | lower
  · exact .inl same
  · have full : 2 ^ 52 ≤ size.mantissa := canonical.full.resolve_left (by omega)
    have bottom : r < 2 ^ (52 : Nat) * 2 ^ size.exponent := by
      rw [scaled]
      exact above.trans_le (zpow_le_zpow_right₀ one_le_two (by omega))
    have short : (size.mantissa : ℚ) < 2 ^ 52 + 1 := by
      have := lt_of_mul_lt_mul_right (near.low.trans_lt bottom) step.le
      linarith [size.slack_le]
    have power : size.mantissa = 2 ^ 52 := by
      have : size.mantissa < 2 ^ 52 + 1 := by exact_mod_cast short
      omega
    have narrow : size.narrow = true := canonical.narrow.2 ⟨power, by omega⟩
    have reached : 2 ^ (((51 : Nat) : Int) + size.exponent) < (2 : ℚ) ^ (53 + t) := by
      rw [← scaled]
      refine lt_trans (lt_of_lt_of_le ?_ near.low) above
      rw [slack, if_pos narrow, power]
      exact mul_lt_mul_of_pos_right (by norm_num) step
    have := (zpow_lt_zpow_iff_right₀ one_lt_two).1 reached
    exact .inr ⟨narrow, by omega⟩

/-- What is left of rounding once the exponent is known: the nearest mantissa, or the power of two above the
    narrow gap. -/
theorem Near.settled (near : size.Near r) (canonical : size.Canonical) (s : Sign) {t : Int}
    {em : ExtendedMantissa} (describes : Describes em (r / 2 ^ t))
    (place : t = size.exponent ∨ (size.narrow ∧ t = size.exponent - 1))
    (above : r < 2 ^ (53 + t)) :
    settled s em.roundedMantissa t = .finite s size.mantissa size.exponent canonical.positive := by
  have step := two_zpow_pos size.exponent
  rcases place with rfl | ⟨narrow, rfl⟩
  · have scaled (c : ℚ) : c * 2 ^ size.exponent ≤ r ↔ c ≤ r / 2 ^ size.exponent := (le_div_iff₀ step).symm
    have scaled' (c : ℚ) : r ≤ c * 2 ^ size.exponent ↔ r / 2 ^ size.exponent ≤ c := (div_le_iff₀ step).symm
    have rounded : em.roundedMantissa = size.mantissa := by
      refine describes.roundedMantissa ?_ ((scaled' _).1 near.high) fun odd => ?_
      · linarith [(scaled _).1 near.low, size.slack_le]
      · have inside := near.edge odd
        rw [← lt_div_iff₀ step, ← div_lt_iff₀ step] at inside
        exact ⟨by linarith [size.slack_le], inside.2⟩
    have positive := canonical.positive.ne'
    simp only [Decimal.settled, rounded, positive, canonical.small, dif_neg, if_true, not_false_eq_true]
  · have power := (canonical.narrow.1 narrow).1
    have half : (2 : ℚ) ^ size.exponent = 2 * 2 ^ (size.exponent - 1) := by
      rw [zpow_sub₀ two_ne_zero]
      simp [mul_div_cancel₀]
    have low := near.low
    rw [slack, if_pos narrow, power, half, ← mul_assoc, ← le_div_iff₀ (two_zpow_pos _)] at low
    rw [← div_two_zpow_lt] at above
    have rounded : em.roundedMantissa = 2 ^ 53 := by
      refine describes.roundedMantissa ?_ ?_ fun odd => absurd odd (by decide)
      · push_cast at low ⊢
        linarith
      · push_cast
        have : r / 2 ^ (size.exponent - 1) < 2 ^ 53 := by exact_mod_cast above
        linarith
    simp [Decimal.settled, rounded, power]

end Magnitude

/-- A number near a float rounds to it. -/
theorem roundWithAccuracy_near {size : Magnitude} {r : ℚ} {m : Nat} {e : Int} {accuracy : Accuracy}
    (near : size.Near r) (canonical : size.Canonical) (s : Sign)
    (describes : Describes (.ofMantissaAndAccuracy m accuracy) (r / 2 ^ e)) (fits : e ≤ target m e) :
    roundWithAccuracy .binary64 s m e accuracy =
      .finite s size.mantissa size.exponent canonical.positive := by
  obtain ⟨em, shifted, rounded⟩ := roundWithAccuracy_eq s describes fits
  have above := lt_target describes
  have place := near.exponent canonical (least_le_target m e) above (target_le describes fits)
  rw [rounded]
  exact near.settled canonical s shifted place above

end CycleCost.Decimal
