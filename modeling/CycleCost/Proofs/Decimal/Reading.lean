/-
Module: CycleCost.Proofs.Decimal.Reading
Purpose: A decimal that lies near a float is read as this float, whichever of the ways to compute it is
  taken: with exact powers of ten for short numerals, with whole numbers of any size for the others.
Main exports: nearestFloat_near, nearestFloat_zero, exists_near, isFinite_ofInt
-/
import CycleCost.Decimal.Numeral
import CycleCost.Proofs.Decimal.Binary
import Mathlib.Data.Rat.Floor

namespace CycleCost.Decimal

open Float.Model Float.Model.UnpackedFloat

/-! ### Products and quotients -/

theorem describes_exact (m : Nat) (e : Int) :
    Describes (.ofMantissaAndAccuracy m .exact) (m * 2 ^ e / 2 ^ e) := by
  rw [mul_div_cancel_right₀ _ (two_zpow_pos e).ne']
  simp [Describes, Residue, ExtendedMantissa.ofMantissaAndAccuracy]

/-- Where a fraction lies of one half. -/
theorem half_iff (r : Nat) {d : Nat} (positive : 0 < d) : ((r : ℚ) / d < 1 / 2 ↔ 2 * r < d) ∧
    ((r : ℚ) / d = 1 / 2 ↔ 2 * r = d) ∧ (1 / 2 < (r : ℚ) / d ↔ d < 2 * r) := by
  have cast : (0 : ℚ) < d := by exact_mod_cast positive
  refine ⟨?_, ?_, ?_⟩
  · rw [div_lt_div_iff₀ cast two_pos]
    norm_cast
    omega
  · rw [div_eq_div_iff cast.ne' two_ne_zero]
    norm_cast
    omega
  · rw [div_lt_div_iff₀ two_pos cast]
    norm_cast
    omega

/-- The quotient and its remainder describe a fraction. -/
theorem describes_quotient (m : Nat) {d : Nat} (positive : 0 < d) :
    Describes (.ofMantissaAndAccuracy (m / d) (accuracyOfFraction (m % d) d)) (m / d) := by
  have cast : (0 : ℚ) < d := by exact_mod_cast positive
  have parts : ((m / d : Nat) : ℚ) * d + (m % d : Nat) = m := by exact_mod_cast Nat.div_add_mod' m d
  have part : (m : ℚ) / d - (m / d : Nat) = (m % d : Nat) / d := by
    field_simp
    linarith
  have less : ((m % d : Nat) : ℚ) < d := by exact_mod_cast Nat.mod_lt m positive
  have bound : ((m % d : Nat) : ℚ) / d < 1 := (div_lt_one cast).2 less
  unfold accuracyOfFraction
  split
  case isTrue zero => simp [Describes, Residue, ExtendedMantissa.ofMantissaAndAccuracy, part, zero]
  case isFalse nonzero =>
    have above : (0 : ℚ) < (m % d : Nat) / d := by
      have : (0 : ℚ) < (m % d : Nat) := by exact_mod_cast Nat.pos_of_ne_zero nonzero
      positivity
    have half := half_iff (m % d) positive
    cases order : compare (2 * (m % d)) d with
    | lt =>
      rw [Nat.compare_eq_lt] at order
      simpa [Describes, Residue, ExtendedMantissa.ofMantissaAndAccuracy, part, above] using half.1.2 order
    | eq =>
      rw [Nat.compare_eq_eq] at order
      simpa [Describes, Residue, ExtendedMantissa.ofMantissaAndAccuracy, part] using half.2.1.2 order
    | gt =>
      rw [Nat.compare_eq_gt] at order
      simpa [Describes, Residue, ExtendedMantissa.ofMantissaAndAccuracy, part, bound] using
        half.2.2.2 order

section

variable {size : Magnitude} {m₁ m₂ : Nat} {e₁ e₂ : Int}

/-- The product of two exact sizes is the float that is nearest to it. -/
theorem mul_near (canonical : size.Canonical) (positive₁ : 0 < m₁) (positive₂ : 0 < m₂)
    (near : size.Near (m₁ * 2 ^ e₁ * (m₂ * 2 ^ e₂))) (fits : e₁ + e₂ ≤ target (m₁ * m₂) (e₁ + e₂)) :
    UnpackedFloat.mul .binary64 (.finite .positive m₁ e₁ positive₁) (.finite .positive m₂ e₂ positive₂) =
      .finite .positive size.mantissa size.exponent canonical.positive := by
  have value : (m₁ * 2 ^ e₁ * (m₂ * 2 ^ e₂) : ℚ) = (m₁ * m₂ : Nat) * 2 ^ (e₁ + e₂) := by
    rw [zpow_add₀ two_ne_zero]
    push_cast
    ring
  rw [value] at near
  exact roundWithAccuracy_near near canonical .positive (describes_exact _ _) fits

/-- The shift of a division leaves enough digits: the quotient is long enough for its exponent. -/
theorem target_quotient (positive₁ : 0 < m₁) (positive₂ : 0 < m₂) {t : Int} {shift : Nat}
    (scale : (shift : Int) = e₁ - e₂ - t)
    (chosen : t ≤ Format.binary64.targetExponent (totalExponent m₁ e₁ - totalExponent m₂ e₂)) :
    t ≤ target (m₁ * 2 ^ shift / m₂) t := by
  rw [targetExponent_eq] at chosen
  simp only [target, targetExponent_eq, totalExponent] at chosen ⊢
  by_cases long : t + 1 ≤ m₁.log2 + e₁ - m₂.log2 - e₂
  · obtain ⟨k, exponent⟩ := Int.eq_ofNat_of_zero_le (Int.sub_nonneg.2 long)
    have divisor : m₂ < 2 ^ (m₂.log2 + 1) := Nat.lt_log2_self
    have dividend : 2 ^ m₁.log2 ≤ m₁ := Nat.log2_self_le positive₁.ne'
    have reached : 2 ^ k * m₂ ≤ m₁ * 2 ^ shift :=
      calc 2 ^ k * m₂ ≤ 2 ^ k * 2 ^ (m₂.log2 + 1) := Nat.mul_le_mul_left _ divisor.le
        _ = 2 ^ m₁.log2 * 2 ^ shift := by rw [← Nat.pow_add, ← Nat.pow_add]; congr 1; omega
        _ ≤ m₁ * 2 ^ shift := Nat.mul_le_mul_right _ dividend
    have quotient : 2 ^ k ≤ m₁ * 2 ^ shift / m₂ := (Nat.le_div_iff_mul_le positive₂).2 reached
    have log : k ≤ (m₁ * 2 ^ shift / m₂).log2 :=
      (Nat.le_log2 (by have := Nat.two_pow_pos k; omega)).2 quotient
    omega
  · omega

/-- A division rounds the exact quotient, of which it computes enough digits. -/
theorem exists_div (e₁ e₂ : Int) (positive₁ : 0 < m₁) (positive₂ : 0 < m₂) (s₁ s₂ : Sign) : ∃ m e accuracy,
    UnpackedFloat.div .binary64 (.finite s₁ m₁ e₁ positive₁) (.finite s₂ m₂ e₂ positive₂) =
      roundWithAccuracy .binary64 (s₁ / s₂) m e accuracy ∧
    Describes (.ofMantissaAndAccuracy m accuracy) (m₁ * 2 ^ e₁ / (m₂ * 2 ^ e₂) / 2 ^ e) ∧ e ≤ target m e := by
  rw [UnpackedFloat.div, divCore]
  generalize chosen : min (e₁ - e₂)
    (Format.binary64.targetExponent (totalExponent m₁ e₁ - totalExponent m₂ e₂)) = t
  have scale : ((e₁ - e₂ - t).toNat : Int) = e₁ - e₂ - t := by omega
  have fits := target_quotient positive₁ positive₂ scale (by omega)
  generalize (e₁ - e₂ - t).toNat = shift at scale fits
  have value : (m₁ * 2 ^ e₁ / (m₂ * 2 ^ e₂) : ℚ) / 2 ^ t = (m₁ * 2 ^ shift : Nat) / m₂ := by
    have cast : (0 : ℚ) < m₂ := by exact_mod_cast positive₂
    have power : (2 : ℚ) ^ e₁ = 2 ^ shift * 2 ^ t * 2 ^ e₂ := by
      rw [← zpow_natCast, scale, ← zpow_add₀ two_ne_zero, ← zpow_add₀ two_ne_zero]
      congr 1
      omega
    rw [power]
    push_cast
    field_simp
  have describes := describes_quotient (m₁ * 2 ^ shift) positive₂
  rw [← value] at describes
  simp only [Nat.shiftLeft_eq]
  exact ⟨_, t, _, rfl, describes, fits⟩

theorem div_near (canonical : size.Canonical) (positive₁ : 0 < m₁) (positive₂ : 0 < m₂)
    (near : size.Near (m₁ * 2 ^ e₁ / (m₂ * 2 ^ e₂))) :
    UnpackedFloat.div .binary64 (.finite .positive m₁ e₁ positive₁) (.finite .positive m₂ e₂ positive₂) =
      .finite .positive size.mantissa size.exponent canonical.positive := by
  obtain ⟨m, e, accuracy, result, describes, fits⟩ := exists_div e₁ e₂ positive₁ positive₂ .positive .positive
  rw [result]
  exact roundWithAccuracy_near near canonical _ describes fits

end

/-! ### Exact operands -/

theorem Magnitude.near_self (size : Magnitude) :
    size.Near (size.mantissa * 2 ^ size.exponent) := by
  have step := two_zpow_pos size.exponent
  have slack : (0 : ℚ) < size.slack := by
    unfold Magnitude.slack
    split <;> norm_num
  have low : ((size.mantissa : ℚ) - size.slack) * 2 ^ size.exponent < size.mantissa * 2 ^ size.exponent :=
    mul_lt_mul_of_pos_right (by linarith) step
  have high : (size.mantissa : ℚ) * 2 ^ size.exponent < (size.mantissa + 1 / 2) * 2 ^ size.exponent :=
    mul_lt_mul_of_pos_right (by linarith) step
  exact ⟨low.le, high.le, fun _ => ⟨low, high⟩⟩

/-- A whole number of at most 53 bits as a float has it. -/
def sizeOfNat (n : Nat) : Magnitude :=
  ⟨n * 2 ^ (52 - n.log2), -(52 - n.log2 : Nat), n * 2 ^ (52 - n.log2) = 2 ^ 52⟩

section

variable {n : Nat}

theorem log2_le_of_lt (small : n < 2 ^ 53) : n.log2 ≤ 52 := by
  by_cases zero : n = 0
  · simp [zero]
  · exact Nat.le_of_lt_succ ((Nat.log2_lt zero).2 small)

theorem sizeOfNat_full (positive : 0 < n) (small : n < 2 ^ 53) : 2 ^ 52 ≤ (sizeOfNat n).mantissa := by
  have log := log2_le_of_lt small
  calc 2 ^ 52 = 2 ^ n.log2 * 2 ^ (52 - n.log2) := by rw [← Nat.pow_add]; congr 1; omega
    _ ≤ n * 2 ^ (52 - n.log2) := Nat.mul_le_mul_right _ (Nat.log2_self_le positive.ne')

/-- A number below the precision has a canonical size. -/
theorem sizeOfNat_canonical (positive : 0 < n) (small : n < 2 ^ 53) : (sizeOfNat n).Canonical := by
  have log := log2_le_of_lt small
  have full := sizeOfNat_full positive small
  have short : (sizeOfNat n).mantissa < 2 ^ 53 :=
    calc n * 2 ^ (52 - n.log2) < 2 ^ (n.log2 + 1) * 2 ^ (52 - n.log2) :=
          Nat.mul_lt_mul_of_pos_right Nat.lt_log2_self (Nat.two_pow_pos _)
      _ = 2 ^ 53 := by rw [← Nat.pow_add]; congr 1; omega
  have exponent : (sizeOfNat n).exponent = -(52 - n.log2 : Nat) := rfl
  have narrow : (sizeOfNat n).narrow = decide ((sizeOfNat n).mantissa = 2 ^ 52) := rfl
  exact ⟨by omega, short, by omega, by omega, .inr full, by rw [narrow, decide_eq_true_eq]; omega⟩

/-- The size of a number has the number as its value. -/
theorem sizeOfNat_value (n : Nat) : ((sizeOfNat n).mantissa : ℚ) * 2 ^ (sizeOfNat n).exponent = n := by
  simp only [sizeOfNat, zpow_neg, zpow_natCast]
  push_cast
  field_simp

/-- A whole number of at most 53 bits is a float. -/
theorem unpack_toFloat (positive : 0 < n) (small : n < 2 ^ 53) :
    n.toUInt64.toFloat.toModel.unpack = .finite .positive (sizeOfNat n).mantissa (sizeOfNat n).exponent
      (sizeOfNat_canonical positive small).positive := by
  have canonical := sizeOfNat_canonical positive small
  have log := log2_le_of_lt small
  have same : n.toUInt64.toNat = n := Nat.mod_eq_of_lt (by omega)
  have unfolded : n.toUInt64.toFloat.toModel =
      Float.Model.pack (UnpackedFloat.normalize .binary64 (n.toUInt64.toNat : Int) 0 .positive) := rfl
  have above : compare (n : Int) 0 = .gt := by
    rw [Int.compare_eq_gt]
    omega
  have target : Format.binary64.targetExponent (totalExponent n 0) = -(52 - n.log2 : Nat) := by
    rw [targetExponent_eq, totalExponent]
    omega
  have rounded : UnpackedFloat.round .binary64 .positive n 0 = .finite .positive (sizeOfNat n).mantissa
      (sizeOfNat n).exponent canonical.positive := by
    have near := (sizeOfNat n).near_self
    have shift : (- -((52 - n.log2 : Nat) : Int)).toNat = 52 - n.log2 := by omega
    rw [UnpackedFloat.round, target]
    simp only [decreaseExponent, Nat.shiftLeft_eq, Int.zero_sub, shift]
    refine roundWithAccuracy_near near canonical .positive (describes_exact _ _) ?_
    have full := (Nat.le_log2 canonical.positive.ne').2 (sizeOfNat_full positive small)
    simp only [Decimal.target, targetExponent_eq, totalExponent]
    change -_ ≤ max (((sizeOfNat n).mantissa.log2 : Int) + 1 + _ - 53) (-1074)
    omega
  rw [unfolded, same, UnpackedFloat.normalize, above]
  simp only [Int.toNat_natCast, rounded]
  exact unpack_pack canonical

end

/-- An entry of the table of powers of ten, with the power that it is. -/
def isPowerOfTen (n : Nat) : Decoded → Bool
  | .finite false size =>
    size.mantissa * 2 ^ size.exponent.toNat = 10 ^ n * 2 ^ (-size.exponent).toNat
  | _ => false

/-- Every entry of the table of powers of ten is exact. -/
theorem isPowerOfTen_table : ∀ n : Fin 23,
    isPowerOfTen n (decode (Float.exactlyRepresentablePowersOfTen[n.val])) := by
  decide +kernel

theorem exists_powerOfTen {n : Nat} (small : n < 23) :
    ∃ size, decode (Float.exactlyRepresentablePowersOfTen[n]) = .finite false size ∧
      (size.mantissa : ℚ) * 2 ^ size.exponent = 10 ^ n := by
  have entry := isPowerOfTen_table ⟨n, small⟩
  dsimp only [Fin.getElem_fin] at entry
  generalize decode (Float.exactlyRepresentablePowersOfTen[n]) = decoded at entry
  unfold isPowerOfTen at entry
  split at entry
  · next size =>
    refine ⟨size, rfl, ?_⟩
    have cast : (size.mantissa : ℚ) * 2 ^ size.exponent.toNat = 10 ^ n * 2 ^ (-size.exponent).toNat := by
      exact_mod_cast of_decide_eq_true entry
    have split : (2 : ℚ) ^ size.exponent * 2 ^ (-size.exponent).toNat = 2 ^ size.exponent.toNat := by
      rw [← zpow_natCast, ← zpow_natCast, ← zpow_add₀ two_ne_zero]
      congr 1
      omega
    have power : (0 : ℚ) < 2 ^ (-size.exponent).toNat := by positivity
    refine mul_right_cancel₀ power.ne' ?_
    rw [mul_assoc, split, cast]
  · cases entry

/-! ### Numerals -/

/-- The float of a size, with a positive sign. -/
def floatOf {size : Magnitude} (canonical : size.Canonical) : Float :=
  .ofModel (.pack (.finite .positive size.mantissa size.exponent canonical.positive))

section

variable {size : Magnitude} {digits n : Nat}

/-- A long multiplication has bits enough for a whole mantissa. -/
theorem target_of_full {m : Nat} {e : Int} (full : 2 ^ 52 ≤ m) : e ≤ target m e := by
  have log := (Nat.le_log2 (by omega)).2 full
  simp only [target, targetExponent_eq, totalExponent]
  omega

/-- Few digits times a power in the table read as the nearest float. -/
theorem shortScientific_pos (canonical : size.Canonical) (positive : 0 < digits) (short : digits < 2 ^ 53)
    (small : n < 23) (near : size.Near (digits * 10 ^ n)) :
    digits.toUInt64.toFloat * Float.exactlyRepresentablePowersOfTen[n] = floatOf canonical := by
  obtain ⟨power, decoded, value⟩ := exists_powerOfTen small
  rw [mul_eq_pack, unpack_toFloat positive short, unpack_of_decode decoded, floatOf]
  congr 2
  refine mul_near canonical _ _ ?_ (target_of_full ?_)
  · rwa [sizeOfNat_value, value]
  · have nonzero := (decode_canonical decoded).positive
    exact (sizeOfNat_full positive short).trans (Nat.le_mul_of_pos_right _ nonzero)

theorem shortScientific_neg (canonical : size.Canonical) (positive : 0 < digits) (short : digits < 2 ^ 53)
    (small : n < 23) (near : size.Near (digits / 10 ^ n)) :
    digits.toUInt64.toFloat / Float.exactlyRepresentablePowersOfTen[n] = floatOf canonical := by
  obtain ⟨power, decoded, value⟩ := exists_powerOfTen small
  rw [div_eq_pack, unpack_toFloat positive short, unpack_of_decode decoded, floatOf]
  congr 2
  refine div_near canonical _ _ ?_
  rwa [sizeOfNat_value, value]

/-- Any digits times a power of ten read as the nearest float. -/
theorem longScientific_pos (canonical : size.Canonical) (positive : 0 < digits) (bound : n ≤ 2 ^ 11)
    (near : size.Near (digits * 10 ^ n)) :
    UnpackedFloat.ofScientific .binary64 digits n =
      .finite .positive size.mantissa size.exponent canonical.positive := by
  have notLarge : ¬ (n : Int) > 2 ^ 11 := by omega
  have notSmall : ¬ (n : Int) < -((2 ^ 11 : Int) + digits.log2) := by omega
  rw [UnpackedFloat.ofScientific, dif_neg positive.ne', if_neg notLarge, if_neg notSmall,
    if_pos (Int.natCast_nonneg n)]
  refine mul_near canonical _ _ ?_ (target_of_full ?_)
  · have value : ((digits <<< 53 : Nat) : ℚ) * 2 ^ (-53 : Int) = digits := by
      rw [Nat.shiftLeft_eq, zpow_neg]
      push_cast
      exact mul_inv_cancel_right₀ (by norm_num) _
    rw [zpow_zero, mul_one]
    change size.Near (((digits <<< 53 : Nat) : ℚ) * 2 ^ (-53 : Int) * ((10 ^ n : Nat) : ℚ))
    rw [value]
    exact_mod_cast near
  · change 2 ^ 52 ≤ digits <<< 53 * 10 ^ n
    rw [Nat.shiftLeft_eq]
    calc 2 ^ 52 ≤ 1 * 2 ^ 53 * 1 := by decide
      _ ≤ digits * 2 ^ 53 * 10 ^ n :=
        Nat.mul_le_mul (Nat.mul_le_mul_right _ positive) (Nat.pow_pos (by decide))

theorem longScientific_neg (canonical : size.Canonical) (positive : 0 < digits) (nonzero : 0 < n)
    (bound : n ≤ 2 ^ 11 + digits.log2) (near : size.Near (digits / 10 ^ n)) :
    UnpackedFloat.ofScientific .binary64 digits (-n) =
      .finite .positive size.mantissa size.exponent canonical.positive := by
  have notLarge : ¬ (-n : Int) > 2 ^ 11 := by omega
  have notSmall : ¬ (-n : Int) < -((2 ^ 11 : Int) + digits.log2) := by omega
  rw [UnpackedFloat.ofScientific, dif_neg positive.ne', if_neg notLarge, if_neg notSmall,
    if_neg (by omega)]
  refine div_near canonical _ _ ?_
  simpa using near

/-- Either way of computing a numeral gives the float near it. -/
theorem ofScientific_near (canonical : size.Canonical) (positive : 0 < digits) (exponent : Int)
    (large : exponent ≤ 2 ^ 11) (small : -(2 ^ 11 + digits.log2) ≤ exponent)
    (near : size.Near (digits * 10 ^ exponent)) :
    Float.ofScientific digits (exponent < 0) exponent.natAbs = floatOf canonical := by
  by_cases negative : exponent < 0
  · have power : (digits * 10 ^ exponent : ℚ) = digits / 10 ^ exponent.natAbs := by
      rw [← zpow_natCast, div_eq_mul_inv, ← zpow_neg]
      congr 2
      omega
    rw [power] at near
    rw [decide_eq_true negative, Float.ofScientific]
    split
    case isTrue fast => exact shortScientific_neg canonical positive fast.1 (by omega) near
    case isFalse slow =>
      have read := longScientific_neg canonical positive (by omega) (by omega) near
      simp only [if_true, Int.negOfNat_eq, Int.ofNat_eq_natCast, Float.Model.ofScientific, read, floatOf]
  · have power : (digits * 10 ^ exponent : ℚ) = digits * 10 ^ exponent.natAbs := by
      rw [← zpow_natCast]
      congr 2
      omega
    rw [power] at near
    rw [decide_eq_false negative, Float.ofScientific]
    split
    case isTrue fast => exact shortScientific_pos canonical positive fast.1 (by omega) near
    case isFalse slow =>
      have read := longScientific_pos canonical positive (by omega) near
      simp only [Bool.false_eq_true, if_false, Int.ofNat_eq_natCast, Float.Model.ofScientific, read, floatOf]

/-- A number has no more digits than are counted. -/
theorem lt_ten_pow_digitCount (n : Nat) : n < 10 ^ digitCount n := by
  induction n using Nat.strongRecOn with
  | ind n ih =>
    rw [digitCount]
    split
    case isTrue zero => omega
    case isFalse nonzero =>
      have next := ih (n / 10) (by omega)
      rw [Nat.pow_succ]
      omega

theorem ten_pow_digitCount_le {n : Nat} (positive : 0 < n) : 10 ^ (digitCount n - 1) ≤ n := by
  induction n using Nat.strongRecOn with
  | ind n ih =>
    rw [digitCount, if_neg positive.ne', Nat.add_sub_cancel]
    by_cases small : n / 10 = 0
    · rw [small, digitCount, if_pos rfl]
      exact positive
    · have next := ih (n / 10) (by omega) (by omega)
      have count : digitCount (n / 10) = digitCount (n / 10) - 1 + 1 := by
        rw [digitCount, if_neg small]
        rfl
      rw [count, Nat.pow_succ]
      omega

theorem digitCount_pos {n : Nat} (positive : 0 < n) : 0 < digitCount n := by
  rw [digitCount, if_neg positive.ne']
  omega

/-- A number has at most as many decimal digits as binary ones. -/
theorem digitCount_le_log2 {n : Nat} (positive : 0 < n) : digitCount n ≤ n.log2 + 1 := by
  have power : 2 ^ (digitCount n - 1) < 2 ^ (n.log2 + 1) :=
    calc 2 ^ (digitCount n - 1) ≤ 10 ^ (digitCount n - 1) := Nat.pow_le_pow_left (by decide) _
      _ ≤ n := ten_pow_digitCount_le positive
      _ < 2 ^ (n.log2 + 1) := Nat.lt_log2_self
  have := (Nat.pow_lt_pow_iff_right (by decide)).1 power
  omega

/-- Powers of ten from here downwards round to zero. -/
theorem ten_zpow_lt_least : (10 : ℚ) ^ (-324 : Int) < 1 / 2 * 2 ^ (-1074 : Int) := by
  have power : (2 ^ 1075 : Nat) < 10 ^ 324 := by decide +kernel
  have cast : (2 : ℚ) ^ 1075 < 10 ^ 324 := by exact_mod_cast power
  have half : 1 / 2 * (2 : ℚ) ^ (-1074 : Int) = (2 ^ 1075)⁻¹ := by
    rw [zpow_neg, one_div, ← mul_inv, zpow_ofNat, ← pow_succ']
  rw [half, zpow_neg, zpow_ofNat]
  exact (inv_lt_inv₀ (by positivity) (by positivity)).2 cast

/-- Powers of ten from here upwards lie beyond the range. -/
theorem most_lt_ten_zpow : (2 : ℚ) ^ 53 * 2 ^ (971 : Int) < 10 ^ (309 : Int) := by
  have power : (2 ^ 53 * 2 ^ 971 : Nat) < 10 ^ 309 := by decide +kernel
  rw [zpow_ofNat, zpow_ofNat]
  exact_mod_cast power

/-- The numbers near a float are within the range of floats. -/
theorem Magnitude.Near.range (canonical : size.Canonical) {r : ℚ} (near : size.Near r) :
    (10 : ℚ) ^ (-324 : Int) < r ∧ r < 10 ^ (309 : Int) := by
  have step := two_zpow_pos size.exponent
  constructor
  · have least : (2 : ℚ) ^ (-1074 : Int) ≤ 2 ^ size.exponent :=
      zpow_le_zpow_right₀ one_le_two canonical.least
    have whole : (1 : ℚ) ≤ size.mantissa := by exact_mod_cast canonical.positive
    calc (10 : ℚ) ^ (-324 : Int) < 1 / 2 * 2 ^ (-1074 : Int) := ten_zpow_lt_least
      _ ≤ 1 / 2 * 2 ^ size.exponent := by linarith
      _ ≤ (size.mantissa - size.slack) * 2 ^ size.exponent :=
        mul_le_mul_of_nonneg_right (by linarith [size.slack_le]) step.le
      _ ≤ r := near.low
  · have most : (2 : ℚ) ^ size.exponent ≤ 2 ^ (971 : Int) := zpow_le_zpow_right₀ one_le_two canonical.most
    have whole : (size.mantissa : ℚ) + 1 ≤ 2 ^ 53 := by exact_mod_cast canonical.small
    calc r ≤ (size.mantissa + 1 / 2) * 2 ^ size.exponent := near.high
      _ ≤ 2 ^ 53 * 2 ^ size.exponent := mul_le_mul_of_nonneg_right (by linarith) step.le
      _ ≤ 2 ^ 53 * 2 ^ (971 : Int) := by linarith
      _ < 10 ^ (309 : Int) := most_lt_ten_zpow

/-- The first digit of a number near a float stands at a place that is not out of range. -/
theorem top_bounds (canonical : size.Canonical) (positive : 0 < digits) {exponent : Int}
    (near : size.Near (digits * 10 ^ exponent)) :
    -324 < digitCount digits + exponent ∧ digitCount digits + exponent ≤ 309 := by
  have range := near.range canonical
  have step : (0 : ℚ) < 10 ^ exponent := zpow_pos (by norm_num) exponent
  have ten : (10 : ℚ) ≠ 0 := by norm_num
  constructor
  · have above : (digits : ℚ) < 10 ^ (digitCount digits : Int) := by
      exact_mod_cast lt_ten_pow_digitCount digits
    have reached : (10 : ℚ) ^ (-324 : Int) < 10 ^ (digitCount digits + exponent) := by
      rw [zpow_add₀ ten]
      exact range.1.trans (mul_lt_mul_of_pos_right above step)
    exact (zpow_lt_zpow_iff_right₀ (by norm_num)).1 reached
  · have count := digitCount_pos positive
    have below : (10 : ℚ) ^ (digitCount digits - 1 : Int) ≤ digits := by
      have cast : ((digitCount digits - 1 : Nat) : Int) = digitCount digits - 1 := by omega
      rw [← cast]
      exact_mod_cast ten_pow_digitCount_le positive
    have reached : (10 : ℚ) ^ (digitCount digits - 1 + exponent) < 10 ^ (309 : Int) := by
      rw [zpow_add₀ ten]
      exact (mul_le_mul_of_nonneg_right below step.le).trans_lt range.2
    have := (zpow_lt_zpow_iff_right₀ (by norm_num)).1 reached
    omega

/-- A decimal near a float is read as the float. -/
theorem nearestFloat_near {x : Float} {negative : Bool} (decoded : decode x = .finite negative size)
    (positive : 0 < digits) {exponent : Int} (near : size.Near (digits * 10 ^ exponent)) :
    nearestFloat negative digits exponent = x := by
  have canonical := decode_canonical decoded
  have top := top_bounds canonical positive near
  have count := digitCount_pos positive
  have log := digitCount_le_log2 positive
  have read := ofScientific_near canonical positive exponent (by omega) (by omega) near
  have unsigned : (if exponent < 0 then Float.ofScientific digits true exponent.natAbs
      else Float.ofScientific digits false exponent.natAbs) = floatOf canonical := by
    rw [← read]
    split <;> simp [*]
  have signed : x = .ofModel (.pack (.finite (signOf negative) size.mantissa size.exponent
      canonical.positive)) := by rw [pack_of_decode decoded]
  rw [nearestFloat]
  simp only [positive.ne', if_false, if_neg (show ¬ (310 : Int) < digitCount digits + exponent by omega),
    if_neg (show ¬ digitCount digits + exponent < (-330 : Int) by omega), unsigned]
  cases negative with
  | false => exact signed.symm
  | true =>
    have opposite : -floatOf canonical =
        .ofModel (.pack (floatOf canonical).toModel.unpack.neg) := rfl
    rw [if_pos rfl, opposite, floatOf, unpack_pack canonical, signed]
    rfl

end

theorem zero_eq : (0.0 : Float) = .ofModel (.pack (.zero .positive)) := by
  decide +kernel

theorem neg_zero_eq : (-0.0 : Float) = .ofModel (.pack (.zero .negative)) := by
  decide +kernel

/-- A numeral of zeros is read as the zero of its sign. -/
theorem nearestFloat_zero {x : Float} {negative : Bool} (decoded : decode x = .zero negative)
    (exponent : Int) : nearestFloat negative 0 exponent = x := by
  have signed : x = .ofModel (.pack (.zero (signOf negative))) := by rw [pack_of_decode_zero decoded]
  rw [nearestFloat, signed]
  cases negative with
  | false => exact zero_eq
  | true => exact neg_zero_eq

/-! ### Whole numbers -/

/-- Nearness in the unit of the last place. -/
theorem Magnitude.near_of_scaled {size : Magnitude} {y : ℚ} (low : size.mantissa - size.slack ≤ y)
    (high : y ≤ size.mantissa + 1 / 2)
    (edge : size.mantissa % 2 = 1 → size.mantissa - size.slack < y ∧ y < size.mantissa + 1 / 2) :
    size.Near (y * 2 ^ size.exponent) := by
  have step := two_zpow_pos size.exponent
  refine ⟨mul_le_mul_of_nonneg_right low step.le, mul_le_mul_of_nonneg_right high step.le, fun odd => ?_⟩
  exact ⟨mul_lt_mul_of_pos_right (edge odd).1 step, mul_lt_mul_of_pos_right (edge odd).2 step⟩

section

variable {m : Nat} {t : Int} {y : ℚ}

/-- The whole part is the nearest mantissa. -/
theorem exists_near_floor (least : -1074 < t) (most : t ≤ 970) (full : 2 ^ 52 ≤ m) (short : m < 2 ^ 53)
    (floor : m ≤ y) (down : y < m + 1 / 2 ∨ (y = m + 1 / 2 ∧ m % 2 = 0)) :
    ∃ size : Magnitude, size.Canonical ∧ size.Near (y * 2 ^ t) := by
  let size : Magnitude := ⟨m, t, m = 2 ^ 52⟩
  have canonical : size.Canonical := ⟨Nat.lt_of_lt_of_le (by decide) full, short, least.le,
    most.trans (by decide), .inr full, by simp [size, least]⟩
  have gap : (0 : ℚ) < size.slack := by
    unfold Magnitude.slack
    split <;> norm_num
  refine ⟨size, canonical, Magnitude.near_of_scaled (by linarith) ?_ fun odd => ⟨by linarith, ?_⟩⟩
  · rcases down with less | ⟨half, _⟩
    · exact less.le
    · exact half.le
  · rcases down with less | ⟨_, even⟩
    · exact less
    · exact absurd (even.symm.trans odd) (by decide)

/-- The mantissa above the whole part is nearest; it is no power of two. -/
theorem exists_near_ceil (least : -1074 < t) (most : t ≤ 970) (full : 2 ^ 52 ≤ m) (room : m + 1 < 2 ^ 53)
    (next : y < m + 1) (up : m + 1 / 2 ≤ y) (edge : y = m + 1 / 2 → m % 2 = 1) :
    ∃ size : Magnitude, size.Canonical ∧ size.Near (y * 2 ^ t) := by
  let size : Magnitude := ⟨m + 1, t, false⟩
  have canonical : size.Canonical := ⟨Nat.succ_pos m, room, least.le, most.trans (by decide),
    .inr (full.trans (Nat.le_succ m)), by simp [size]; omega⟩
  have slack : size.slack = 1 / 2 := if_neg (by simp [size])
  have mantissa : (size.mantissa : ℚ) = m + 1 := by simp [size]
  refine ⟨size, canonical, Magnitude.near_of_scaled ?_ ?_ fun odd => ⟨?_, ?_⟩⟩
  · rw [mantissa, slack]
    linarith
  · rw [mantissa]
    linarith
  · rw [mantissa, slack]
    refine lt_of_le_of_ne (by linarith) fun half => ?_
    have below := edge (by linarith)
    have above : (m + 1) % 2 = 1 := odd
    omega
  · rw [mantissa]
    linarith

/-- The next power of two is nearest, and the number lies in the narrow gap below it. -/
theorem exists_near_power (least : -1074 < t) (most : t ≤ 970) (low : 2 ^ 53 - 1 / 2 ≤ y)
    (high : y < 2 ^ 53) : ∃ size : Magnitude, size.Canonical ∧ size.Near (y * 2 ^ t) := by
  let size : Magnitude := ⟨2 ^ 52, t + 1, true⟩
  have canonical : size.Canonical := ⟨show 0 < 2 ^ 52 by decide, show 2 ^ 52 < 2 ^ 53 by decide,
    by dsimp only [size]; omega, by dsimp only [size]; omega, .inr le_rfl, by simp [size]; omega⟩
  have slack : size.slack = 1 / 4 := rfl
  have mantissa : (size.mantissa : ℚ) = 2 ^ 52 := by
    change ((2 ^ 52 : Nat) : ℚ) = 2 ^ 52
    norm_num
  have halved : y * 2 ^ t = y / 2 * 2 ^ size.exponent := by
    change _ = y / 2 * 2 ^ (t + 1)
    rw [zpow_add₀ two_ne_zero]
    ring
  rw [halved]
  refine ⟨size, canonical, Magnitude.near_of_scaled ?_ ?_ fun odd =>
    absurd odd (show ¬ 2 ^ 52 % 2 = 1 by decide)⟩
  · rw [mantissa, slack]
    linarith
  · rw [mantissa]
    linarith

end

/-- There is a float near every number between two powers of two in the range of floats. -/
theorem exists_near {r : ℚ} {t : Int} (least : -1074 < t) (most : t ≤ 970) (low : 2 ^ (52 + t) ≤ r)
    (high : r < 2 ^ (53 + t)) : ∃ size : Magnitude, size.Canonical ∧ size.Near r := by
  have step := two_zpow_pos t
  obtain ⟨y, rfl⟩ : ∃ y, r = y * 2 ^ t := ⟨r / 2 ^ t, (div_mul_cancel₀ r step.ne').symm⟩
  rw [zpow_add₀ two_ne_zero] at low high
  have below : (2 : ℚ) ^ (52 : Int) ≤ y := le_of_mul_le_mul_right low step
  have above : y < 2 ^ 53 := by exact_mod_cast lt_of_mul_lt_mul_right high step.le
  have floor : (⌊y⌋₊ : ℚ) ≤ y := Nat.floor_le (le_trans (by positivity) below)
  have next : y < ⌊y⌋₊ + 1 := Nat.lt_floor_add_one y
  have full : 2 ^ 52 ≤ ⌊y⌋₊ := Nat.le_floor (by exact_mod_cast below)
  have short : ⌊y⌋₊ < 2 ^ 53 := by exact_mod_cast floor.trans_lt above
  generalize ⌊y⌋₊ = m at floor next full short
  by_cases down : y < m + 1 / 2 ∨ (y = m + 1 / 2 ∧ m % 2 = 0)
  · exact exists_near_floor least most full short floor down
  · have up : (m : ℚ) + 1 / 2 ≤ y := not_lt.1 fun less => down (.inl less)
    by_cases room : m + 1 < 2 ^ 53
    · refine exists_near_ceil least most full room next up fun half => ?_
      have odd : ¬ m % 2 = 0 := fun even => down (.inr ⟨half, even⟩)
      omega
    · have last : (m : ℚ) + 1 = 2 ^ 53 := by exact_mod_cast (by omega : m + 1 = 2 ^ 53)
      exact exists_near_power least most (by linarith) above

/-- A positive whole number of 64 bits is read as a float near it. -/
theorem exists_near_ofNat {n : Nat} (positive : 0 < n) (small : n < 2 ^ 64) :
    ∃ (size : Magnitude) (canonical : size.Canonical), size.Near n ∧ Float.ofNat n = floatOf canonical := by
  have log : n.log2 < 64 := (Nat.log2_lt positive.ne').2 small
  have low : (2 : ℚ) ^ (52 + ((n.log2 : Int) - 52)) ≤ n := by
    rw [add_sub_cancel, zpow_natCast]
    exact_mod_cast Nat.log2_self_le positive.ne'
  have high : (n : ℚ) < 2 ^ (53 + ((n.log2 : Int) - 52)) := by
    have exponent : 53 + ((n.log2 : Int) - 52) = (n.log2 + 1 : Nat) := by omega
    rw [exponent, zpow_natCast]
    exact_mod_cast (Nat.lt_log2_self : n < 2 ^ (n.log2 + 1))
  obtain ⟨size, canonical, near⟩ := exists_near (by omega) (by omega) low high
  refine ⟨size, canonical, near, ofScientific_near canonical positive 0 (by decide) (by omega) ?_⟩
  rwa [zpow_zero, mul_one]

/-- A positive whole number of 64 bits is read as a float that has a size. -/
theorem exists_floatOf_ofNat {n : Nat} (positive : 0 < n) (small : n < 2 ^ 64) :
    ∃ (size : Magnitude) (canonical : size.Canonical), Float.ofNat n = floatOf canonical := by
  obtain ⟨size, canonical, -, read⟩ := exists_near_ofNat positive small
  exact ⟨size, canonical, read⟩

theorem isFinite_floatOf {size : Magnitude} (canonical : size.Canonical) :
    (floatOf canonical).isFinite ∧ (-floatOf canonical).isFinite := by
  have finite (x : Float) : x.isFinite = x.toModel.unpack.isFinite := rfl
  have opposite : -floatOf canonical = .ofModel (.pack (floatOf canonical).toModel.unpack.neg) := rfl
  rw [opposite, finite, finite, floatOf, unpack_pack canonical]
  refine ⟨rfl, ?_⟩
  change (Float.Model.pack (.finite .negative size.mantissa size.exponent canonical.positive)).unpack.isFinite
  rw [unpack_pack canonical]
  rfl

/-- Whole numbers of 64 bits are in the range of floats. -/
theorem isFinite_ofInt {n : Int} (low : Int64.minValue.toInt ≤ n) (high : n < UInt64.size) :
    (Float.ofInt n).isFinite := by
  cases n with
  | ofNat n =>
    rcases Nat.eq_zero_or_pos n with rfl | positive
    · decide +kernel
    · obtain ⟨size, canonical, read⟩ := exists_floatOf_ofNat positive (by simp [UInt64.size] at high; omega)
      rw [Float.ofInt, read]
      exact (isFinite_floatOf canonical).1
  | negSucc n =>
    obtain ⟨size, canonical, read⟩ := exists_floatOf_ofNat n.succ_pos (by simp at low; omega)
    have negated : Float.ofInt (.negSucc n) = -Float.ofNat n.succ := rfl
    rw [negated, read]
    exact (isFinite_floatOf canonical).2

end CycleCost.Decimal
