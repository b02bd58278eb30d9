/-
Module: CycleCost.Proofs.Arithmetic.Value
Purpose: The rational number that a finite float is, and what comparing and truncating make of it. A comparison
  compares the numbers, and a conversion to a whole number drops the fraction.
Main exports: valueOf, compare_unpack, lt_iff_valueOf_lt, toNat_toUInt64
-/
import CycleCost.Proofs.Decimal.Reading

namespace CycleCost

open Float.Model Float.Model.UnpackedFloat

namespace Decimal.Magnitude

/-- The number that a size is. -/
def value (size : Magnitude) : ℚ := size.mantissa * 2 ^ size.exponent

variable {a b : Magnitude}

theorem Canonical.value_pos (canonical : a.Canonical) : 0 < a.value :=
  mul_pos (Nat.cast_pos.2 canonical.positive) (two_zpow_pos _)

/-- Of two sizes the one with the larger exponent is larger: its mantissa has all its bits. -/
theorem Canonical.value_lt_of_exponent_lt (first : a.Canonical) (second : b.Canonical)
    (less : a.exponent < b.exponent) : a.value < b.value := by
  have least := first.least
  have full : 2 ^ 52 ≤ b.mantissa := second.full.resolve_left (by omega)
  have short : (a.mantissa : ℚ) < 2 ^ 53 := by exact_mod_cast first.small
  have long : (2 : ℚ) ^ 52 ≤ b.mantissa := by exact_mod_cast full
  have step : (2 : ℚ) * 2 ^ a.exponent ≤ 2 ^ b.exponent := by
    rw [← zpow_one_add₀ two_ne_zero]
    exact zpow_le_zpow_right₀ one_le_two (by omega)
  calc a.value < 2 ^ 53 * 2 ^ a.exponent := mul_lt_mul_of_pos_right short (two_zpow_pos _)
    _ = 2 ^ 52 * (2 * 2 ^ a.exponent) := by ring
    _ ≤ 2 ^ 52 * 2 ^ b.exponent := mul_le_mul_of_nonneg_left step (by positivity)
    _ ≤ b.value := mul_le_mul_of_nonneg_right long (two_zpow_pos _).le

/-- Sizes are compared by their exponents and then by their mantissas. -/
theorem Canonical.compare_eq (first : a.Canonical) (second : b.Canonical) :
    (compare a.exponent b.exponent).then (compare a.mantissa b.mantissa) = compare a.value b.value := by
  rcases lt_trichotomy a.exponent b.exponent with less | same | more
  · rw [compare_lt_iff_lt.2 less, compare_lt_iff_lt.2 (first.value_lt_of_exponent_lt second less)]
    rfl
  · rw [compare_eq_iff_eq.2 same, value, value, same]
    have step := two_zpow_pos b.exponent
    change compare a.mantissa b.mantissa = _
    rcases lt_trichotomy a.mantissa b.mantissa with less | equal | more
    · rw [compare_lt_iff_lt.2 less, eq_comm, compare_lt_iff_lt]
      exact mul_lt_mul_of_pos_right (Nat.cast_lt.2 less) step
    · rw [equal, compare_eq_iff_eq.2 rfl, compare_eq_iff_eq.2 rfl]
    · rw [compare_gt_iff_gt.2 more, eq_comm, compare_gt_iff_gt]
      exact mul_lt_mul_of_pos_right (Nat.cast_lt.2 more) step
  · rw [compare_gt_iff_gt.2 more, compare_gt_iff_gt.2 (second.value_lt_of_exponent_lt first more)]
    rfl

end Decimal.Magnitude

open Decimal

/-! ### Values -/

/-- The number that the parts of a float stand for. What is no finite number has none, and counts as zero. -/
def amount : UnpackedFloat → ℚ
  | .finite s mantissa exponent _ => (s.apply mantissa : Int) * 2 ^ exponent
  | _ => 0

@[simp] theorem amount_zero (s : Sign) : amount (.zero s) = 0 := rfl

/-- The exact value of a finite float. -/
def valueOf (x : Float) : ℚ := amount x.toModel.unpack

variable {x y : Float} {r : ℚ}

/-- The parts of a finite float: a signed zero, or a sign with a size. -/
theorem parts_of_isFinite (finite : x.isFinite) : (∃ s, x.toModel.unpack = .zero s) ∨
    ∃ s, ∃ (size : Magnitude) (canonical : size.Canonical),
      x.toModel.unpack = .finite s size.mantissa size.exponent canonical.positive := by
  rcases (isFinite_iff x).1 finite with ⟨negative, decoded⟩ | ⟨negative, size, decoded⟩
  · exact .inl ⟨_, unpack_of_decode_zero decoded⟩
  · exact .inr ⟨_, size, decode_canonical decoded, unpack_of_decode decoded⟩

/-- A size with a sign. -/
def signed : Sign → ℚ → ℚ
  | .negative, r => -r
  | .positive, r => r

theorem abs_signed (s : Sign) (nonneg : 0 ≤ r) : |signed s r| = r := by
  cases s with
  | negative => exact (abs_neg r).trans (abs_of_nonneg nonneg)
  | positive => exact abs_of_nonneg nonneg

theorem signed_injective (s : Sign) : Function.Injective (signed s) := by
  intro r r' same
  cases s with
  | negative => exact neg_injective same
  | positive => exact same

theorem signed_mul (s s' : Sign) (r r' : ℚ) : signed s r * signed s' r' = signed (s * s') (r * r') := by
  cases s <;> cases s'
  · exact neg_mul_neg r r'
  · exact neg_mul r r'
  · exact mul_neg r r'
  · rfl

theorem signed_div (s s' : Sign) (r r' : ℚ) : signed s r / signed s' r' = signed (s / s') (r / r') := by
  cases s <;> cases s'
  · exact neg_div_neg_eq r r'
  · exact neg_div r' r
  · exact div_neg r
  · rfl

theorem signOf_signed (s : Sign) (positive : 0 < r) : signOf (decide (signed s r < 0)) = s := by
  cases s with
  | negative => rw [decide_eq_true (show signed .negative r < 0 from neg_neg_of_pos positive)]; rfl
  | positive => rw [decide_eq_false (show ¬ signed .positive r < 0 from positive.not_gt)]; rfl

theorem amount_finite {s : Sign} {m : Nat} {e : Int} (positive : 0 < m) :
    amount (.finite s m e positive) = signed s (m * 2 ^ e) := by
  cases s <;> simp [amount, signed, Sign.apply]

theorem amount_finite_positive (size : Magnitude) (positive : 0 < size.mantissa) :
    amount (.finite .positive size.mantissa size.exponent positive) = size.value := amount_finite positive

theorem amount_finite_negative (size : Magnitude) (positive : 0 < size.mantissa) :
    amount (.finite .negative size.mantissa size.exponent positive) = -size.value := amount_finite positive

theorem compare_neg (u v : ℚ) : compare (-u) (-v) = (compare u v).swap := by
  rcases lt_trichotomy u v with less | same | more
  · rw [compare_lt_iff_lt.2 less, compare_gt_iff_gt.2 (neg_lt_neg less)]
    rfl
  · rw [same, compare_eq_iff_eq.2 rfl, compare_eq_iff_eq.2 rfl]
    rfl
  · rw [compare_gt_iff_gt.2 more, compare_lt_iff_lt.2 (neg_lt_neg more)]
    rfl

/-- Finite floats are compared as the numbers they are. -/
theorem compare_unpack (first : x.isFinite) (second : y.isFinite) :
    UnpackedFloat.compare x.toModel.unpack y.toModel.unpack = some (compare (valueOf x) (valueOf y)) := by
  rw [valueOf, valueOf]
  rcases parts_of_isFinite first with ⟨s, zero⟩ | ⟨s, a, ca, parts⟩ <;>
    rcases parts_of_isFinite second with ⟨t, zero'⟩ | ⟨t, b, cb, parts'⟩
  · rw [zero, zero', amount_zero, amount_zero, compare_eq_iff_eq.2 rfl]
    rfl
  · rw [zero, parts', amount_zero]
    cases t with
    | positive =>
      rw [amount_finite_positive, compare_lt_iff_lt.2 cb.value_pos]
      rfl
    | negative =>
      rw [amount_finite_negative, compare_gt_iff_gt.2 (neg_neg_of_pos cb.value_pos)]
      rfl
  · rw [parts, zero', amount_zero]
    cases s with
    | positive =>
      rw [amount_finite_positive, compare_gt_iff_gt.2 ca.value_pos]
      rfl
    | negative =>
      rw [amount_finite_negative, compare_lt_iff_lt.2 (neg_neg_of_pos ca.value_pos)]
      rfl
  · have above := ca.value_pos
    have below := cb.value_pos
    rw [parts, parts']
    cases s <;> cases t
    · rw [amount_finite_negative, amount_finite_negative, compare_neg, ← ca.compare_eq cb]
      rfl
    · rw [amount_finite_negative, amount_finite_positive, compare_lt_iff_lt.2 (by linarith)]
      rfl
    · rw [amount_finite_negative, amount_finite_positive, compare_gt_iff_gt.2 (by linarith)]
      rfl
    · rw [amount_finite_positive, amount_finite_positive, ← ca.compare_eq cb]
      rfl

/-- The order of finite floats is the order of their values. -/
theorem lt_iff_valueOf_lt (first : x.isFinite) (second : y.isFinite) : x < y ↔ valueOf x < valueOf y := by
  have unfolded : x < y ↔ UnpackedFloat.lt x.toModel.unpack y.toModel.unpack = true :=
    ⟨of_decide_eq_true, decide_eq_true⟩
  rw [unfolded, UnpackedFloat.lt, compare_unpack first second, ← compare_lt_iff_lt]
  exact beq_iff_eq.trans Option.some_inj

/-! ### Whole numbers -/

/-- The shift that drops the fraction leaves the whole part. -/
theorem roundToInt_positive {size : Magnitude} (canonical : size.Canonical) :
    roundToInt .positive size.mantissa size.exponent = (⌊size.value⌋₊ : Int) := by
  generalize up : (size.exponent - 0).toNat = k
  generalize down : (0 - (size.exponent - k)).toNat = n
  have whole : Describes (.ofMantissaAndAccuracy (size.mantissa <<< k) .exact) (size.mantissa <<< k : Nat) := by
    simpa using describes_exact (size.mantissa <<< k) 0
  have shifted := whole.shiftRight n
  have value : ((size.mantissa <<< k : Nat) : ℚ) / 2 ^ n = size.value := by
    have exponent : size.exponent = (k : Int) - n := by omega
    rw [Magnitude.value, exponent, zpow_sub₀ two_ne_zero, zpow_natCast, zpow_natCast, Nat.shiftLeft_eq]
    push_cast
    exact mul_div_assoc _ _ _
  rw [value] at shifted
  have floor := (Nat.floor_eq_iff canonical.value_pos.le).2 ⟨shifted.le, shifted.lt⟩
  rw [floor]
  simp only [roundToInt, decreaseExponent, shiftToExponent, up, down]
  rfl

/-- A float that is not negative becomes the whole number below it, if that has 64 bits. -/
theorem toNat_toUInt64 (finite : x.isFinite) (nonneg : 0 ≤ valueOf x) (small : valueOf x < 2 ^ 64) :
    x.toUInt64.toNat = ⌊valueOf x⌋₊ := by
  have unfolded : x.toUInt64 = UInt64.ofNatClamp (x.toModel.unpack.toInt 0 (UInt64.size - 1)).toNat := rfl
  rw [unfolded]
  rw [valueOf] at nonneg small ⊢
  rcases parts_of_isFinite finite with ⟨s, zero⟩ | ⟨s, size, canonical, parts⟩
  · rw [zero, amount_zero, Nat.floor_zero]
    rfl
  · rw [parts] at nonneg small ⊢
    cases s with
    | negative =>
      rw [amount_finite_negative] at nonneg
      linarith [canonical.value_pos]
    | positive =>
      rw [amount_finite_positive] at small ⊢
      have floor : ⌊size.value⌋₊ < UInt64.size := (Nat.floor_lt canonical.value_pos.le).2 (by exact_mod_cast small)
      rw [UnpackedFloat.toInt, roundToInt_positive canonical, Int.toNat_natCast, UInt64.ofNatClamp,
        dif_pos floor]
      rfl

/-- The float of a canonical size has that size as its value. -/
theorem valueOf_floatOf {size : Magnitude} (canonical : size.Canonical) :
    valueOf (floatOf canonical) = size.value := by
  have parts : (floatOf canonical).toModel.unpack =
      .finite .positive size.mantissa size.exponent canonical.positive := unpack_pack canonical
  rw [valueOf, parts, amount_finite_positive]

end CycleCost
