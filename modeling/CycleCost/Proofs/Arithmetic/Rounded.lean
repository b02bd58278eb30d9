/-
Module: CycleCost.Proofs.Arithmetic.Rounded
Purpose: What the operations of floats make of their values. A sum, a difference, a product and a quotient of finite
  floats is the exact result, rounded, and infinite when rounding it leaves the range of floats.
Main exports: IsRounded, isRounded_add, isRounded_sub, isRounded_mul, isRounded_div, valueOf_ofNat
-/
import CycleCost.Proofs.Arithmetic.Nearest
import CycleCost.Proofs.Arithmetic.Sign
import CycleCost.Scalar

namespace CycleCost

open Float.Model Float.Model.UnpackedFloat

variable {r y : ℚ} {t : Int}

/-! ### Mantissas -/

namespace Decimal

/-- A mantissa with its accuracy rounds to the integer nearest to the value it describes, ties to even. -/
theorem Describes.roundedMantissa_eq {em : ExtendedMantissa} (describes : Describes em y) :
    (em.roundedMantissa : Int) = nearestEven y := by
  obtain ⟨near, edge⟩ := nearestEven_near y
  obtain ⟨n, same⟩ := Int.eq_ofNat_of_zero_le (nearestEven_nonneg (em.mantissa.cast_nonneg.trans describes.le))
  rw [same] at near edge ⊢
  rw [Int.cast_natCast] at near edge
  rw [abs_le] at near
  refine congrArg _ (describes.roundedMantissa (by linarith) (by linarith) fun odd => ?_)
  have inside : |y - n| < 1 / 2 := by
    apply lt_of_le_of_ne (abs_le.2 near)
    intro half
    have even := edge half
    rw [Int.even_iff] at even
    omega
  rw [abs_lt] at inside
  constructor <;> linarith

/-- Every number that is not negative has a whole part with two residual bits. -/
theorem exists_describes (nonneg : 0 ≤ y) : ∃ em, Describes em y := by
  have floor : (⌊y⌋₊ : ℚ) ≤ y := Nat.floor_le nonneg
  have next : y < ⌊y⌋₊ + 1 := Nat.lt_floor_add_one y
  rcases lt_trichotomy (y - ⌊y⌋₊) (1 / 2) with below | half | above
  · rcases floor.eq_or_lt with whole | part
    · exact ⟨⟨⌊y⌋₊, false, false⟩, sub_eq_zero.2 whole.symm⟩
    · exact ⟨⟨⌊y⌋₊, false, true⟩, sub_pos.2 part, below⟩
  · exact ⟨⟨⌊y⌋₊, true, false⟩, half⟩
  · exact ⟨⟨⌊y⌋₊, true, true⟩, above, sub_left_lt_of_lt_add next⟩

end Decimal

open Decimal

/-! ### Packing -/

section

variable {s : Sign} {n : Nat} (small : n ≤ 2 ^ 53) (least : -1074 ≤ t) (full : t = -1074 ∨ 2 ^ 52 ≤ n)

include small in
theorem amount_settled : amount (settled s n t) = signed s (n * 2 ^ t) := by
  rw [settled]
  split
  case isTrue zero =>
    rw [amount_zero, zero, Nat.cast_zero, zero_mul]
    cases s with
    | negative => exact neg_zero.symm
    | positive => rfl
  case isFalse nonzero =>
    split
    case isTrue short => exact amount_finite _
    case isFalse long =>
      have top : n = 2 ^ 53 := by omega
      rw [amount_finite, top, zpow_add_one₀ two_ne_zero]
      push_cast
      congr 1
      ring

theorem isFinite_settled : (settled s n t).isFinite := by
  rw [settled]
  split
  · rfl
  · split <;> rfl

include least full in
/-- What a rounding settles on is kept by packing if it is in range. -/
theorem unpack_pack_settled (inRange : (n : ℚ) * 2 ^ t < rangeEnd) :
    (Float.Model.pack (settled s n t)).unpack = settled s n t := by
  have most (k : Nat) (reached : (2 : ℚ) ^ (k : Int) ≤ n) : k + t < 1024 := by
    apply (zpow_lt_zpow_iff_right₀ (one_lt_two (α := ℚ))).1
    rw [zpow_add₀ two_ne_zero]
    exact (mul_le_mul_of_nonneg_right reached (two_zpow_pos t).le).trans_lt inRange
  rw [settled]
  split
  case isTrue zero => exact unpack_pack_zero _
  case isFalse nonzero =>
    split
    case isTrue short =>
      have top : t ≤ 971 := by
        rcases full with bottom | full
        · omega
        · have := most 52 (by exact_mod_cast full)
          omega
      let size : Magnitude := ⟨n, t, n = 2 ^ 52 ∧ -1074 < t⟩
      have canonical : size.Canonical := ⟨Nat.pos_of_ne_zero nonzero, short, least, top, full, by simp [size]⟩
      exact unpack_pack canonical
    case isFalse long =>
      have top : t + 1 ≤ 971 := by
        have := most 53 (by exact_mod_cast not_lt.1 long)
        omega
      let size : Magnitude := ⟨2 ^ 52, t + 1, true⟩
      have canonical : size.Canonical := ⟨show 0 < 2 ^ 52 by decide, show 2 ^ 52 < 2 ^ 53 by decide,
        by dsimp only [size]; omega, top, .inr le_rfl, by simp [size]; omega⟩
      exact unpack_pack canonical

/-- An exponent beyond the range packs to infinity. -/
theorem unpack_pack_large {m : Nat} {e : Int} (positive : 0 < m) (large : 972 ≤ e) :
    (Float.Model.pack (.finite s m e positive)).unpack = .infinity s := by
  have biased :
      2 ^ 11 ≤ (e + Format.binary64.exponentBias + Format.binary64.mantissaBitsWithoutImplicit).toNat + 1 := by
    simp [Format.exponentBias]
    omega
  change UnpackedFloat.unpack .binary64 (UnpackedFloat.pack .binary64 _) = _
  rw [UnpackedFloat.pack]
  simp only [biased, if_true]
  cases s <;> rfl

include small in
/-- What a rounding settles on becomes infinite if it is out of range. -/
theorem unpack_pack_settled_of_rangeEnd_le (outOfRange : rangeEnd ≤ (n : ℚ) * 2 ^ t) :
    (Float.Model.pack (settled s n t)).unpack = .infinity s := by
  have nonzero : n ≠ 0 := by
    rintro rfl
    rw [Nat.cast_zero, zero_mul] at outOfRange
    exact absurd outOfRange (not_le.2 (two_zpow_pos _))
  have least (k : Nat) (below : (n : ℚ) < 2 ^ (k : Int)) : 1024 < k + t := by
    apply (zpow_lt_zpow_iff_right₀ (one_lt_two (α := ℚ))).1
    rw [zpow_add₀ two_ne_zero]
    exact outOfRange.trans_lt (mul_lt_mul_of_pos_right below (two_zpow_pos t))
  rw [settled, dif_neg nonzero]
  split
  case isTrue short =>
    have := least 53 (by exact_mod_cast short)
    exact unpack_pack_large _ (by omega)
  case isFalse long =>
    have := least 54 (by exact_mod_cast (by omega : n < 2 ^ 54))
    exact unpack_pack_large _ (by omega)

end

/-! ### Rounding -/

/-- The float that a number is rounded to, as far as the number tells: not the sign of a zero. Beyond the range it
    is infinite. -/
structure IsRounded (x : Float) (r : ℚ) : Prop where
  inRange : |rounded r| < rangeEnd → x.isFinite ∧ valueOf x = rounded r
  outOfRange : rangeEnd ≤ |rounded r| → x.toModel.unpack = .infinity (signOf (decide (r < 0)))

/-- A rounding that stays within the range is finite, not negative and coarsely bounded. -/
theorem IsRounded.of_nonneg {x : Float} (result : IsRounded x r) (nonneg : 0 ≤ r) (bounded : 2 * r + 1 < rangeEnd) :
    x.isFinite ∧ 0 ≤ valueOf x ∧ valueOf x ≤ 2 * r + 1 := by
  have low := rounded_nonneg nonneg
  have high := rounded_le nonneg
  obtain ⟨finite, value⟩ := result.inRange (by rw [abs_of_nonneg low]; exact high.trans_lt bounded)
  rw [value]
  exact ⟨finite, low, high⟩

theorem isNaN_eq (x : Float) : x.isNaN = x.toModel.unpack.isNaN := rfl

section

variable (x y : Float)

theorem unpack_add : (x + y).toModel.unpack =
    (Float.Model.pack (UnpackedFloat.add .binary64 x.toModel.unpack y.toModel.unpack)).unpack := rfl

theorem unpack_sub : (x - y).toModel.unpack =
    (Float.Model.pack (UnpackedFloat.sub .binary64 x.toModel.unpack y.toModel.unpack)).unpack := rfl

theorem unpack_mul : (x * y).toModel.unpack =
    (Float.Model.pack (UnpackedFloat.mul .binary64 x.toModel.unpack y.toModel.unpack)).unpack := rfl

theorem unpack_div : (x / y).toModel.unpack =
    (Float.Model.pack (UnpackedFloat.div .binary64 x.toModel.unpack y.toModel.unpack)).unpack := rfl

end

theorem isRounded_zero (s : Sign) : IsRounded (.ofModel (.pack (.zero s))) 0 where
  inRange _ := by
    rw [isFinite_eq, valueOf, unpack_pack_zero, amount_zero, rounded_zero]
    exact ⟨rfl, rfl⟩
  outOfRange beyond := by
    rw [rounded_zero, abs_zero] at beyond
    exact absurd beyond (not_le.2 (two_zpow_pos _))

theorem rounded_signed (s : Sign) (r : ℚ) : rounded (signed s r) = signed s (rounded r) := by
  cases s with
  | negative => exact rounded_neg r
  | positive => rfl

section

variable {s : Sign} {m : Nat} {e : Int} {accuracy : Accuracy}

/-- Rounding a mantissa of known accuracy gives the float nearest to the value described. -/
theorem isRounded_roundWithAccuracy (positive : 0 < r)
    (describes : Describes (.ofMantissaAndAccuracy m accuracy) (r / 2 ^ e)) (fits : e ≤ target m e) :
    IsRounded (.ofModel (.pack (roundWithAccuracy .binary64 s m e accuracy))) (signed s r) := by
  obtain ⟨em, shifted, result⟩ := roundWithAccuracy_eq s describes fits
  have least := least_le_target m e
  have above := lt_target describes
  have below := target_le describes fits
  rw [result]
  generalize target m e = t at *
  have step := two_zpow_pos t
  have value : (em.roundedMantissa : ℚ) * 2 ^ t = rounded r := by
    rw [rounded, lastPlace_eq positive least above below, ← shifted.roundedMantissa_eq, Int.cast_natCast]
  have small := shifted.roundedMantissa_small above
  have full : t = -1074 ∨ 2 ^ 52 ≤ em.roundedMantissa := by
    refine below.imp_right fun reached => ?_
    rw [← le_div_two_zpow] at reached
    have : 2 ^ 52 < em.mantissa + 1 := by exact_mod_cast reached.trans_lt shifted.lt
    have := le_roundedMantissa em
    omega
  have nonneg : 0 ≤ rounded r := value ▸ mul_nonneg (Nat.cast_nonneg _) step.le
  constructor
  · rw [rounded_signed, abs_signed s nonneg, ← value]
    intro inRange
    rw [isFinite_eq, valueOf, unpack_pack_settled least full inRange]
    exact ⟨isFinite_settled, amount_settled small⟩
  · rw [rounded_signed, abs_signed s nonneg, ← value, signOf_signed s positive]
    exact unpack_pack_settled_of_rangeEnd_le small

theorem shiftLeft_mul_two_zpow (m k : Nat) (e : Int) : ((m <<< k : Nat) : ℚ) * 2 ^ (e - k) = m * 2 ^ e := by
  rw [Nat.shiftLeft_eq, Nat.cast_mul, Nat.cast_pow, Nat.cast_ofNat, mul_assoc, ← zpow_natCast,
    ← zpow_add₀ two_ne_zero, add_sub_cancel]

theorem log2_shiftLeft (positive : 0 < m) (k : Nat) : (m <<< k).log2 = m.log2 + k := by
  have low : 2 ^ m.log2 ≤ m := Nat.log2_self_le positive.ne'
  have high : m < 2 ^ (m.log2 + 1) := Nat.lt_log2_self
  rw [Nat.shiftLeft_eq]
  refine (Nat.log2_eq_iff (Nat.mul_pos positive (Nat.two_pow_pos k)).ne').2 ⟨?_, ?_⟩
  · rw [Nat.pow_add]
    exact Nat.mul_le_mul_right _ low
  · rw [Nat.add_right_comm, Nat.pow_add]
    exact Nat.mul_lt_mul_of_pos_right high (Nat.two_pow_pos k)

theorem target_shiftLeft (positive : 0 < m) (k : Nat) (e : Int) : target (m <<< k) (e - k) = target m e := by
  rw [target, target, totalExponent, totalExponent, log2_shiftLeft positive]
  congr 1
  omega

/-- Rounding first appends digits where the exponent is too large. -/
theorem isRounded_round (positive : 0 < m) :
    IsRounded (.ofModel (.pack (UnpackedFloat.round .binary64 s m e))) (signed s (m * 2 ^ e)) := by
  have unfolded : UnpackedFloat.round .binary64 s m e = roundWithAccuracy .binary64 s
      (m <<< (e - target m e).toNat) (e - (e - target m e).toNat) .exact := rfl
  have fits : e - (e - target m e).toNat ≤ target m e := by omega
  rw [unfolded]
  generalize (e - target m e).toNat = k at fits ⊢
  have describes := describes_exact (m <<< k) (e - k)
  rw [shiftLeft_mul_two_zpow] at describes
  rw [← target_shiftLeft positive k] at fits
  exact isRounded_roundWithAccuracy (mul_pos (Nat.cast_pos.2 positive) (two_zpow_pos e)) describes fits

/-- Normalising an integer times a power of two gives the float nearest to it. -/
theorem isRounded_normalize (n : Int) (e : Int) (s : Sign) :
    IsRounded (.ofModel (.pack (UnpackedFloat.normalize .binary64 n e s))) (n * 2 ^ e) := by
  rw [UnpackedFloat.normalize]
  rcases lt_trichotomy n 0 with negative | rfl | positive
  · rw [compare_lt_iff_lt.2 negative]
    have size : (n : ℚ) * 2 ^ e = signed .negative ((-n).toNat * 2 ^ e) := by
      have cast : ((-n).toNat : ℚ) = -n := by
        rw [← Int.cast_natCast, Int.toNat_of_nonneg (by omega), Int.cast_neg]
      rw [signed, cast, neg_mul, neg_neg]
    rw [size]
    exact isRounded_round (by omega)
  · rw [Int.cast_zero, zero_mul]
    exact isRounded_zero s
  · rw [compare_gt_iff_gt.2 positive]
    have size : (n : ℚ) * 2 ^ e = signed .positive (n.toNat * 2 ^ e) := by
      have cast : (n.toNat : ℚ) = n := by
        rw [← Int.cast_natCast, Int.toNat_of_nonneg positive.le]
      rw [signed, cast]
    rw [size]
    exact isRounded_round (by omega)

end

/-! ### Operations -/

variable {a b : Float}

/-- A finite float is the one that its own value is rounded to. -/
theorem rounded_valueOf (finite : a.isFinite) : rounded (valueOf a) = valueOf a := by
  rw [valueOf]
  rcases parts_of_isFinite finite with ⟨s, zero⟩ | ⟨s, size, canonical, parts⟩
  · rw [zero, amount_zero, rounded_zero]
  · have short : |(size.mantissa : Int)| ≤ 2 ^ 53 := by
      rw [Nat.abs_cast]
      exact_mod_cast canonical.small.le
    have whole := rounded_eq_self_of_short short canonical.least
    rw [Int.cast_natCast] at whole
    rw [parts, amount_finite, rounded_signed, whole]

/-- No finite float lies beyond the largest. -/
theorem abs_valueOf_le (finite : a.isFinite) : |valueOf a| ≤ largest := by
  rw [valueOf]
  rcases parts_of_isFinite finite with ⟨s, zero⟩ | ⟨s, size, canonical, parts⟩
  · rw [zero, amount_zero, abs_zero]
    exact largest_pos.le
  · have short : (size.mantissa : ℚ) ≤ 2 ^ 53 - 1 := by
      rw [le_sub_iff_add_le]
      exact_mod_cast canonical.small
    have step : (2 : ℚ) ^ size.exponent ≤ 2 ^ (971 : Int) := zpow_le_zpow_right₀ one_le_two canonical.most
    have nonneg : 0 ≤ (size.mantissa : ℚ) * 2 ^ size.exponent := canonical.value_pos.le
    rw [parts, amount_finite, abs_signed s nonneg]
    exact mul_le_mul short step (two_zpow_pos _).le (by norm_num)

theorem abs_valueOf_lt (finite : a.isFinite) : |valueOf a| < rangeEnd :=
  (abs_valueOf_le finite).trans_lt largest_lt_rangeEnd

/-- A finite float is its own rounding. -/
theorem isRounded_self (finite : a.isFinite) : IsRounded a (valueOf a) where
  inRange _ := ⟨finite, (rounded_valueOf finite).symm⟩
  outOfRange beyond := by
    rw [rounded_valueOf finite] at beyond
    exact absurd beyond (not_le.2 (abs_valueOf_lt finite))

theorem ofModel_pack_unpack (a : Float) : Float.ofModel (.pack a.toModel.unpack) = a := by
  rw [pack_unpack]

theorem eq_of_unpack_eq (same : a.toModel.unpack = b.toModel.unpack) : a = b := by
  rw [← ofModel_pack_unpack a, same, ofModel_pack_unpack]

/-- Apart from the zeros, a finite float is known by its value. -/
theorem eq_of_valueOf_eq (first : a.isFinite) (second : b.isFinite) (nonzero : valueOf b ≠ 0)
    (same : valueOf a = valueOf b) : a = b := by
  have values := same
  rw [← same] at nonzero
  rw [valueOf] at nonzero
  rw [valueOf, valueOf] at values
  rcases parts_of_isFinite first with ⟨s, zero⟩ | ⟨s, size, canonical, parts⟩
  · rw [zero, amount_zero] at nonzero
    exact absurd rfl nonzero
  rcases parts_of_isFinite second with ⟨s', zero'⟩ | ⟨s', size', canonical', parts'⟩
  · rw [values, zero', amount_zero] at nonzero
    exact absurd rfl nonzero
  rw [parts, parts', amount_finite, amount_finite] at values
  obtain rfl : s = s' := by
    have sign := signOf_signed s canonical.value_pos
    have sign' := signOf_signed s' canonical'.value_pos
    rw [← sign, ← sign']
    exact congrArg (fun q => signOf (decide (q < 0))) values
  have sizes : size.value = size'.value := signed_injective s values
  have order := canonical.compare_eq canonical'
  rw [compare_eq_iff_eq.2 sizes, Ordering.then_eq_eq, compare_eq_iff_eq, compare_eq_iff_eq] at order
  apply eq_of_unpack_eq
  rw [parts, parts', UnpackedFloat.finite.injEq]
  exact ⟨rfl, order.2, order.1⟩

/-- A mantissa with its sign, at a lower exponent. -/
theorem apply_shiftLeft_mul_two_zpow (s : Sign) (m : Nat) {e t : Int} (low : t ≤ e) :
    ((s.apply (m <<< (e - t).toNat : Nat) : Int) : ℚ) * 2 ^ t = (s.apply m : Int) * 2 ^ e := by
  have value := shiftLeft_mul_two_zpow m (e - t).toNat e
  have exponent : e - (e - t).toNat = t := by omega
  rw [exponent] at value
  cases s with
  | negative =>
    simp only [Sign.apply, Int.cast_neg, Int.cast_natCast, neg_mul]
    rw [value]
  | positive => exact_mod_cast value

/-- A sum of finite floats is the rounded sum of their values. -/
theorem isRounded_add (first : a.isFinite) (second : b.isFinite) :
    IsRounded (a + b) (valueOf a + valueOf b) := by
  rcases parts_of_isFinite first with ⟨s, zero⟩ | ⟨s, size, canonical, parts⟩ <;>
    rcases parts_of_isFinite second with ⟨s', zero'⟩ | ⟨s', size', canonical', parts'⟩
  · rw [Decimal.add_eq_pack, valueOf, valueOf, zero, zero', amount_zero, amount_zero, add_zero, UnpackedFloat.add]
    split <;> exact isRounded_zero _
  · have none : valueOf a = 0 := by rw [valueOf, zero, amount_zero]
    have same : a + b = b := by
      rw [Decimal.add_eq_pack, zero, parts']
      change Float.ofModel (.pack (.finite s' size'.mantissa size'.exponent canonical'.positive)) = b
      rw [← parts', ofModel_pack_unpack]
    rw [same, none, zero_add]
    exact isRounded_self second
  · have none : valueOf b = 0 := by rw [valueOf, zero', amount_zero]
    have same : a + b = a := by
      rw [Decimal.add_eq_pack, parts, zero']
      change Float.ofModel (.pack (.finite s size.mantissa size.exponent canonical.positive)) = a
      rw [← parts, ofModel_pack_unpack]
    rw [same, none, add_zero]
    exact isRounded_self first
  · have left := apply_shiftLeft_mul_two_zpow s size.mantissa (min_le_left size.exponent size'.exponent)
    have right := apply_shiftLeft_mul_two_zpow s' size'.mantissa (min_le_right size.exponent size'.exponent)
    rw [Decimal.add_eq_pack, valueOf, valueOf, parts, parts', amount, amount, ← left, ← right, ← add_mul,
      ← Int.cast_add]
    exact isRounded_normalize _ _ _

/-- A difference of parts is a sum with the second ones negated. -/
theorem sub_eq_add_neg_unpacked (spec : Format) (u v : UnpackedFloat) :
    UnpackedFloat.sub spec u v = UnpackedFloat.add spec u v.neg := by
  have opposite (s : Sign) (n : Int) : (-s).apply n = -s.apply n := by
    cases s with
    | negative => exact (neg_neg n).symm
    | positive => rfl
  cases u <;> cases v <;> try rfl
  case finite.finite => simp only [UnpackedFloat.sub, UnpackedFloat.add, UnpackedFloat.neg, opposite, sub_eq_add_neg]

/-- A difference of finite floats is the rounded difference of their values. -/
theorem isRounded_sub (first : a.isFinite) (second : b.isFinite) :
    IsRounded (a - b) (valueOf a - valueOf b) := by
  have negated := unpack_neg b
  have sum : a - b = a + -b := by
    rw [Decimal.sub_eq_pack, sub_eq_add_neg_unpacked, ← negated]
    rfl
  have finite : (-b).isFinite := by
    rw [isFinite_eq, negated]
    rcases parts_of_isFinite second with ⟨s, zero⟩ | ⟨s, size, canonical, parts⟩
    · rw [zero]
      rfl
    · rw [parts]
      rfl
  have value : valueOf (-b) = -valueOf b := by
    rw [valueOf, valueOf, negated]
    rcases parts_of_isFinite second with ⟨s, zero⟩ | ⟨s, size, canonical, parts⟩
    · rw [zero]
      exact neg_zero.symm
    · rw [parts, UnpackedFloat.neg, amount_finite, amount_finite]
      cases s with
      | negative => exact (neg_neg _).symm
      | positive => rfl
  rw [sum, sub_eq_add_neg, ← value]
  exact isRounded_add first finite

/-- A product of mantissas has bits enough for a whole mantissa, or its exponent is the least one. -/
theorem fits_mul {a b : Magnitude} (first : a.Canonical) (second : b.Canonical) :
    a.exponent + b.exponent ≤ target (a.mantissa * b.mantissa) (a.exponent + b.exponent) := by
  by_cases full : 2 ^ 52 ≤ a.mantissa * b.mantissa
  · exact target_of_full full
  · have left : a.exponent = -1074 := first.full.resolve_right fun long =>
      full (long.trans (Nat.le_mul_of_pos_right _ second.positive))
    have right : b.exponent = -1074 := second.full.resolve_right fun long =>
      full (long.trans (Nat.le_mul_of_pos_left _ first.positive))
    have least := least_le_target (a.mantissa * b.mantissa) (a.exponent + b.exponent)
    omega

/-- A product of finite floats is the rounded product of their values. -/
theorem isRounded_mul (first : a.isFinite) (second : b.isFinite) :
    IsRounded (a * b) (valueOf a * valueOf b) := by
  rcases parts_of_isFinite first with ⟨s, zero⟩ | ⟨s, size, canonical, parts⟩ <;>
    rcases parts_of_isFinite second with ⟨s', zero'⟩ | ⟨s', size', canonical', parts'⟩
  · rw [Decimal.mul_eq_pack, valueOf, valueOf, zero, zero', amount_zero, zero_mul]
    exact isRounded_zero (s * s')
  · rw [Decimal.mul_eq_pack, valueOf, valueOf, zero, parts', amount_zero, zero_mul]
    exact isRounded_zero (s * s')
  · rw [Decimal.mul_eq_pack, valueOf, valueOf, parts, zero', amount_zero, mul_zero]
    exact isRounded_zero (s * s')
  · have value : (size.mantissa * size'.mantissa : Nat) * (2 : ℚ) ^ (size.exponent + size'.exponent) =
        size.mantissa * 2 ^ size.exponent * (size'.mantissa * 2 ^ size'.exponent) := by
      rw [zpow_add₀ two_ne_zero]
      push_cast
      ring
    have product : valueOf a * valueOf b = signed (s * s')
        ((size.mantissa * size'.mantissa : Nat) * 2 ^ (size.exponent + size'.exponent)) := by
      rw [valueOf, valueOf, parts, parts', amount_finite, amount_finite, signed_mul, value]
    have positive : (0 : ℚ) < (size.mantissa * size'.mantissa : Nat) * 2 ^ (size.exponent + size'.exponent) :=
      mul_pos (Nat.cast_pos.2 (Nat.mul_pos canonical.positive canonical'.positive)) (two_zpow_pos _)
    rw [product, Decimal.mul_eq_pack, parts, parts']
    exact isRounded_roundWithAccuracy positive (describes_exact _ _) (fits_mul canonical canonical')

/-- A quotient of finite floats is the rounded quotient of their values. -/
theorem isRounded_div (first : a.isFinite) (second : b.isFinite) (nonzero : valueOf b ≠ 0) :
    IsRounded (a / b) (valueOf a / valueOf b) := by
  rcases parts_of_isFinite second with ⟨s', zero'⟩ | ⟨s', size', canonical', parts'⟩
  · rw [valueOf, zero', amount_zero] at nonzero
    exact absurd rfl nonzero
  rcases parts_of_isFinite first with ⟨s, zero⟩ | ⟨s, size, canonical, parts⟩
  · rw [Decimal.div_eq_pack, valueOf, zero, parts', amount_zero, zero_div]
    exact isRounded_zero (s / s')
  · obtain ⟨m, e, accuracy, result, describes, fits⟩ :=
      exists_div size.exponent size'.exponent canonical.positive canonical'.positive s s'
    have quotient : valueOf a / valueOf b = signed (s / s')
        (size.mantissa * 2 ^ size.exponent / (size'.mantissa * 2 ^ size'.exponent)) := by
      rw [valueOf, valueOf, parts, parts', amount_finite, amount_finite, signed_div]
    rw [quotient, Decimal.div_eq_pack, parts, parts', result]
    exact isRounded_roundWithAccuracy (div_pos canonical.value_pos canonical'.value_pos) describes fits

/-! ### Counts -/

/-- A number near a float is rounded to it. -/
theorem Decimal.Magnitude.Near.rounded_eq {size : Magnitude} (near : size.Near r) (canonical : size.Canonical) :
    rounded r = size.value := by
  have positive : 0 < r := (zpow_pos (by norm_num) _).trans (near.range canonical).1
  have above := lt_lastPlace positive
  have place := near.exponent canonical (least_le_lastPlace r) above (lastPlace_le positive)
  obtain ⟨em, describes⟩ := exists_describes (div_nonneg positive.le (two_zpow_pos (lastPlace r)).le)
  have small := describes.roundedMantissa_small above
  calc rounded r = em.roundedMantissa * 2 ^ lastPlace r := by
        rw [rounded, ← describes.roundedMantissa_eq, Int.cast_natCast]
    _ = amount (Decimal.settled .positive em.roundedMantissa (lastPlace r)) := by
        rw [amount_settled small]
        rfl
    _ = size.value := by
        rw [near.settled canonical .positive describes place above, amount_finite_positive]

/-- A count of 64 bits is read as the rounded count. -/
theorem valueOf_ofNat {n : Nat} (small : n < 2 ^ 64) :
    (Float.ofNat n).isFinite ∧ valueOf (Float.ofNat n) = rounded n := by
  rcases Nat.eq_zero_or_pos n with rfl | positive
  · have parts : (Float.ofNat 0).toModel.unpack = .zero .positive := rfl
    rw [valueOf, parts, amount_zero, Nat.cast_zero, rounded_zero]
    exact ⟨by decide +kernel, rfl⟩
  · obtain ⟨size, canonical, near, read⟩ := exists_near_ofNat positive small
    rw [read, valueOf_floatOf, near.rounded_eq canonical]
    exact ⟨(isFinite_floatOf canonical).1, rfl⟩

theorem valueOf_zero : (Scalar.zero : Float).isFinite ∧ valueOf Scalar.zero = 0 := by
  have read := valueOf_ofNat (n := 0) (by decide)
  rwa [Nat.cast_zero, rounded_zero] at read

theorem valueOf_one : (Scalar.one : Float).isFinite ∧ valueOf Scalar.one = 1 := by
  have read := valueOf_ofNat (n := 1) (by decide)
  rwa [rounded_natCast (by decide), Nat.cast_one] at read

end CycleCost
