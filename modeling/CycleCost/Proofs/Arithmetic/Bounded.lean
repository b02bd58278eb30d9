/-
Module: CycleCost.Proofs.Arithmetic.Bounded
Purpose: Results of float operations between bounds. Rounding keeps the order, so a bound that is a float itself holds
  for the rounded result when it holds for the exact one; bounds are added, multiplied and divided as numbers are,
  and a sum grows by one bound with each term. Sizes that are not negative stay so, in the range of floats and
  beyond it, and of all their sums and quotients only that of two infinite ones is no number. Clamping makes a
  share of every number and passes on what is none.
Main exports: Attained, Within, IsRounded.within, within_foldl_add, within_mean, AtLeast, AtLeast.foldl_add,
  IsNumber, isNumber_div_iff, IsShare, isShare_clamp
-/
import CycleCost.Proofs.Arithmetic.Repeated

namespace CycleCost

open Decimal Float.Model Float.Model.UnpackedFloat

variable {x y : Float} {r bound other unit : ℚ}

/-! ### Bounds that are floats -/

/-- A bound that is a float. -/
structure Attained (bound : ℚ) : Prop where
  float : rounded bound = bound
  inRange : bound < rangeEnd

/-- A short count of a power of two, within the range, is a value that a float attains. -/
theorem attained_mul_two_zpow {n k : Nat} {e : Int} (count : n ≤ 2 ^ k) (short : k ≤ 53) (least : -1074 ≤ e)
    (most : k + e < 1024) : Attained (n * 2 ^ e) where
  float := by
    have small : |(n : Int)| ≤ 2 ^ 53 := by
      rw [Nat.abs_cast]
      exact_mod_cast count.trans (Nat.pow_le_pow_right Nat.two_pos short)
    have whole := rounded_eq_self_of_short small least
    rwa [Int.cast_natCast] at whole
  inRange := by
    calc (n : ℚ) * 2 ^ e ≤ 2 ^ (k : Int) * 2 ^ e :=
          mul_le_mul_of_nonneg_right (by exact_mod_cast count) (two_zpow_pos e).le
      _ = 2 ^ (k + e) := (zpow_add₀ two_ne_zero _ _).symm
      _ < rangeEnd := zpow_lt_zpow_right₀ one_lt_two most

theorem attained_two_zpow {e : Int} (least : -1074 ≤ e) (most : e < 1024) : Attained (2 ^ e) := by
  have one := attained_mul_two_zpow (n := 1) (k := 0) (e := e) le_rfl (by decide) least (by omega)
  rwa [Nat.cast_one, one_mul] at one

theorem two_zpow_add_self (e : Int) : (2 : ℚ) ^ e + 2 ^ e = 2 ^ (e + 1) := by
  rw [zpow_add_one₀ two_ne_zero, mul_two]

/-! ### Results within a bound -/

/-- A finite float of at most the given size. -/
structure Within (bound : ℚ) (x : Float) : Prop where
  finite : x.isFinite
  abs_le : |valueOf x| ≤ bound

/-- A rounded result stays within a bound that a float attains. -/
theorem IsRounded.within (result : IsRounded x r) (attained : Attained bound) (le : |r| ≤ bound) :
    Within bound x := by
  have bounded : |rounded r| ≤ bound := by
    rw [abs_rounded]
    exact (rounded_le_rounded le).trans_eq attained.float
  obtain ⟨finite, value⟩ := result.inRange (bounded.trans_lt attained.inRange)
  exact ⟨finite, value ▸ bounded⟩

theorem not_isFinite_of_infinity {s : Sign} (beyond : x.toModel.unpack = .infinity s) : ¬ x.isFinite := by
  rw [isFinite_eq, beyond]
  exact Bool.false_ne_true

/-- A finite result is the rounded number. -/
theorem IsRounded.valueOf_eq (result : IsRounded x r) (finite : x.isFinite) : valueOf x = rounded r := by
  rcases lt_or_ge |rounded r| rangeEnd with inside | beyond
  · exact (result.inRange inside).2
  · exact absurd finite (not_isFinite_of_infinity (result.outOfRange beyond))

/-- A bound from below holds after rounding as well. -/
theorem IsRounded.le_abs (result : IsRounded x r) (finite : x.isFinite) (float : rounded bound = bound)
    (le : bound ≤ |r|) : bound ≤ |valueOf x| := by
  rw [result.valueOf_eq finite, abs_rounded]
  exact float.symm.trans_le (rounded_le_rounded le)

namespace Within

theorem mono (within : Within bound x) (le : bound ≤ other) : Within other x :=
  ⟨within.finite, within.abs_le.trans le⟩

variable (first : Within bound x) (second : Within other y)

include first second

/-- A sum stays within the sum of the bounds, where a float attains it. -/
theorem add (attained : Attained (bound + other)) : Within (bound + other) (x + y) := by
  apply (isRounded_add first.finite second.finite).within attained
  exact (abs_add_le _ _).trans (add_le_add first.abs_le second.abs_le)

theorem sub (attained : Attained (bound + other)) : Within (bound + other) (x - y) := by
  apply (isRounded_sub first.finite second.finite).within attained
  exact (abs_sub _ _).trans (add_le_add first.abs_le second.abs_le)

theorem mul (attained : Attained (bound * other)) : Within (bound * other) (x * y) := by
  apply (isRounded_mul first.finite second.finite).within attained
  rw [abs_mul]
  exact mul_le_mul first.abs_le second.abs_le (abs_nonneg _) ((abs_nonneg _).trans first.abs_le)

omit second in
/-- A quotient stays within the bound over the least divisor, where a float attains it. -/
theorem div {least : ℚ} (positive : 0 < least) (divisor : y.isFinite) (reached : least ≤ |valueOf y|)
    (attained : Attained (bound / least)) : Within (bound / least) (x / y) := by
  have nonzero : valueOf y ≠ 0 := abs_pos.1 (positive.trans_le reached)
  apply (isRounded_div first.finite divisor nonzero).within attained
  rw [abs_div]
  exact div_le_div₀ ((abs_nonneg _).trans first.abs_le) first.abs_le positive reached

end Within

section

variable {d e : Int} (most : d < 1024)

include most

theorem Within.sub_two_zpow (first : Within (2 ^ e) x) (second : Within (2 ^ e) y) (least : -1074 ≤ d)
    (place : e + 1 = d) : Within (2 ^ d) (x - y) := by
  subst place
  have difference := first.sub second
  rw [two_zpow_add_self] at difference
  exact difference (attained_two_zpow least most)

theorem Within.mul_two_zpow {f : Int} (first : Within (2 ^ e) x) (second : Within (2 ^ f) y) (least : -1074 ≤ d)
    (place : e + f = d) : Within (2 ^ d) (x * y) := by
  subst place
  have product := first.mul second
  rw [← zpow_add₀ two_ne_zero] at product
  exact product (attained_two_zpow least most)

end

/-- Each term adds its bound to that of a sum. -/
theorem within_foldl_add {total j : Nat} (attained : ∀ i ≤ total, Attained (i * unit)) {list : List Float}
    (terms : ∀ v ∈ list, Within unit v) {start : Float} (begun : Within (j * unit) start)
    (count : j + list.length ≤ total) :
    Within ((j + list.length : Nat) * unit) (list.foldl (· + ·) start) := by
  induction list generalizing start j with
  | nil => exact begun
  | cons v rest ih =>
    obtain ⟨first, others⟩ := List.forall_mem_cons.1 terms
    rw [List.length_cons] at count ⊢
    have one : (j : ℚ) * unit + unit = (j + 1 : Nat) * unit := by
      push_cast
      ring
    have next := begun.add first (one ▸ attained (j + 1) (by omega))
    rw [one] at next
    have rest := ih others next (by omega)
    rwa [Nat.add_right_comm, Nat.add_assoc] at rest

/-- Terms of at most a power of two have a sum of at most their number by it. -/
theorem within_foldl_add_two_zpow {k : Nat} {e : Int} {list : List Float} (short : list.length ≤ 2 ^ k)
    (digits : k ≤ 53) (least : -1074 ≤ e) (most : k + e < 1024) (terms : ∀ v ∈ list, Within (2 ^ e) v)
    {start : Float} (begun : Within 0 start) : Within (list.length * 2 ^ e) (list.foldl (· + ·) start) := by
  have attained : ∀ i ≤ list.length, Attained (i * 2 ^ e) := fun i below =>
    attained_mul_two_zpow (below.trans short) digits least most
  rw [← zero_mul (2 ^ e), ← Nat.cast_zero] at begun
  have sum := within_foldl_add attained terms begun (Nat.zero_add _).le
  rwa [Nat.zero_add] at sum

theorem within_zero : Within 0 (Scalar.zero : Float) :=
  ⟨valueOf_zero.1, by rw [valueOf_zero.2, abs_zero]⟩

theorem within_sumStart : Within 0 (Scalar.sumStart : Float) := by
  constructor <;> decide +kernel

/-- The mean is bounded like the terms. -/
theorem within_mean {k : Nat} {e : Int} {list : List Float} (present : list ≠ []) (short : list.length ≤ 2 ^ k)
    (digits : k ≤ 53) (least : -1074 ≤ e) (most : k + e < 1024) (terms : ∀ v ∈ list, Within (2 ^ e) v) :
    Within (2 ^ e) (Scalar.mean list) := by
  have size : (0 : ℚ) < list.length := Nat.cast_pos.2 (List.length_pos_iff.2 present)
  have sum := within_foldl_add_two_zpow short digits least most terms within_sumStart
  have count : list.length ≤ 2 ^ 53 := short.trans (Nat.pow_le_pow_right Nat.two_pos digits)
  obtain ⟨countFinite, value⟩ := valueOf_ofNat (n := list.length) (by omega)
  rw [rounded_natCast count] at value
  have share : list.length * (2 : ℚ) ^ e / list.length = 2 ^ e := mul_div_cancel_left₀ _ size.ne'
  have one := attained_two_zpow least (by omega : e < 1024)
  rw [← share] at one
  have mean := sum.div size countFinite (by rw [value, Nat.abs_cast]) one
  rwa [share] at mean

/-! ### Sizes -/

/-- A float that is not below the given bound: finite, or above all floats. -/
inductive AtLeast (bound : ℚ) (x : Float) : Prop where
  | finite (finite : x.isFinite) (reached : bound ≤ valueOf x)
  | infinite (beyond : x.toModel.unpack = .infinity .positive)

theorem atLeast_zero : AtLeast 0 (Scalar.zero : Float) := .finite valueOf_zero.1 valueOf_zero.2.ge

theorem atLeast_sumStart : AtLeast 0 (Scalar.sumStart : Float) := .finite (by decide +kernel) (by decide +kernel)

theorem AtLeast.reached (large : AtLeast bound x) (finite : x.isFinite) : bound ≤ valueOf x := by
  cases large with
  | finite _ reached => exact reached
  | infinite beyond => exact absurd finite (not_isFinite_of_infinity beyond)

theorem IsRounded.atLeast (result : IsRounded x r) (nonneg : 0 ≤ bound) (float : rounded bound = bound)
    (le : bound ≤ r) : AtLeast bound x := by
  have reached : bound ≤ rounded r := float.symm.trans_le (rounded_le_rounded le)
  rcases lt_or_ge |rounded r| rangeEnd with inside | beyond
  · obtain ⟨finite, value⟩ := result.inRange inside
    exact .finite finite (value ▸ reached)
  · have sign : signOf (decide (r < 0)) = .positive := by
      rw [decide_eq_false (nonneg.trans le).not_gt]
      rfl
    exact .infinite (sign ▸ result.outOfRange beyond)

/-- Sizes add up to at least the sum of their bounds. -/
theorem AtLeast.add (first : AtLeast bound x) (second : AtLeast other y) (nonneg : 0 ≤ bound + other)
    (float : rounded (bound + other) = bound + other) : AtLeast (bound + other) (x + y) := by
  cases first with
  | finite finite reached =>
    cases second with
    | finite finite' reached' =>
      exact (isRounded_add finite finite').atLeast nonneg float (add_le_add reached reached')
    | infinite beyond => exact .infinite (unpack_add_infinity beyond finite).2
  | infinite beyond =>
    cases second with
    | finite finite' reached' => exact .infinite (unpack_add_infinity beyond finite').1
    | infinite beyond' =>
      refine .infinite ?_
      rw [unpack_add, beyond, beyond']
      rfl

/-- Further sizes do not make a sum smaller. -/
theorem AtLeast.foldl_add {start : Float} (begun : AtLeast bound start) (nonneg : 0 ≤ bound)
    (float : rounded bound = bound) {list : List Float} (sizes : ∀ v ∈ list, AtLeast 0 v) :
    AtLeast bound (list.foldl (· + ·) start) := by
  induction list generalizing start with
  | nil => exact begun
  | cons v rest ih =>
    obtain ⟨first, others⟩ := List.forall_mem_cons.1 sizes
    rw [← add_zero bound] at nonneg float
    have next := begun.add first nonneg float
    rw [add_zero] at next
    exact ih next others

/-- A sum of sizes is at least each of them. -/
theorem atLeast_foldl_add {start : Float} (begun : AtLeast 0 start) {list : List Float}
    (sizes : ∀ v ∈ list, AtLeast 0 v) {v : Float} (member : v ∈ list) (large : AtLeast bound v)
    (nonneg : 0 ≤ bound) (float : rounded bound = bound) : AtLeast bound (list.foldl (· + ·) start) := by
  obtain ⟨before, after, rfl⟩ := List.append_of_mem member
  have front := begun.foldl_add le_rfl rounded_zero fun u inside => sizes u (List.mem_append_left _ inside)
  rw [← zero_add bound] at nonneg float
  have next := front.add large nonneg float
  rw [zero_add] at nonneg float next
  rw [List.foldl_append, List.foldl_cons]
  exact next.foldl_add nonneg float fun u inside =>
    sizes u (List.mem_append_right _ (List.mem_cons_of_mem _ inside))

/-! ### Numbers -/

/-- A float that is a number, of finite size or beyond. -/
def IsNumber (x : Float) : Prop := x.isFinite ∨ ∃ s, x.toModel.unpack = .infinity s

theorem not_isNumber_iff : ¬ IsNumber x ↔ x.toModel.unpack = .notANumber := by
  rw [IsNumber, isFinite_eq]
  cases x.toModel.unpack <;> simp [UnpackedFloat.isFinite]

theorem isNaN_iff : x.isNaN = true ↔ ¬ IsNumber x := by
  rw [not_isNumber_iff, isNaN_eq]
  cases x.toModel.unpack <;> simp [UnpackedFloat.isNaN]

theorem IsRounded.isNumber (result : IsRounded x r) : IsNumber x := by
  rcases lt_or_ge |rounded r| rangeEnd with inside | beyond
  · exact .inl (result.inRange inside).1
  · exact .inr ⟨_, result.outOfRange beyond⟩

theorem IsNumber.add (number : IsNumber x) (finite : y.isFinite) : IsNumber (x + y) := by
  rcases number with first | ⟨s, beyond⟩
  · exact (isRounded_add first finite).isNumber
  · exact .inr ⟨s, (unpack_add_infinity beyond finite).1⟩

theorem isNumber_sub_iff (finite : x.isFinite) : IsNumber (x - y) ↔ IsNumber y := by
  constructor
  · contrapose
    rw [not_isNumber_iff, not_isNumber_iff, unpack_sub]
    intro none
    have difference : UnpackedFloat.sub .binary64 x.toModel.unpack .notANumber = .notANumber := by
      cases x.toModel.unpack <;> rfl
    rw [none, difference]
    rfl
  · rintro (second | ⟨s, beyond⟩)
    · exact (isRounded_sub finite second).isNumber
    · exact .inr ⟨-s, unpack_sub_infinity finite beyond⟩

/-- A square is a size. -/
theorem IsNumber.square (number : IsNumber x) : AtLeast 0 (x * x) := by
  rcases number with finite | ⟨s, beyond⟩
  · exact (isRounded_mul finite finite).atLeast le_rfl rounded_zero (mul_self_nonneg _)
  · refine .infinite ?_
    rw [unpack_mul, beyond]
    cases s <;> rfl

/-- The quotient of two sizes is a number unless both are infinite. -/
theorem isNumber_div_iff (first : AtLeast 0 x) (second : AtLeast 0 y) (nonzero : y.isFinite → valueOf y ≠ 0) :
    IsNumber (x / y) ↔ x.isFinite ∨ y.isFinite := by
  cases first with
  | finite finite _ =>
    refine iff_of_true ?_ (.inl finite)
    cases second with
    | finite divisor _ => exact (isRounded_div finite divisor (nonzero divisor)).isNumber
    | infinite beyond =>
      left
      rw [isFinite_eq, unpack_div, beyond]
      rcases parts_of_isFinite finite with ⟨s, zero⟩ | ⟨s, size, canonical, parts⟩
      · rw [zero, UnpackedFloat.div, unpack_pack_zero]
        rfl
      · rw [parts, UnpackedFloat.div, unpack_pack_zero]
        rfl
  | infinite beyond =>
    cases second with
    | finite divisor _ =>
      refine iff_of_true (.inr ?_) (.inr divisor)
      rw [unpack_div, beyond]
      rcases parts_of_isFinite divisor with ⟨s, zero⟩ | ⟨s, size, canonical, parts⟩
      · exact absurd (by rw [valueOf, zero, amount_zero]) (nonzero divisor)
      · rw [parts, UnpackedFloat.div]
        exact ⟨_, unpack_pack_infinity _⟩
    | infinite beyond' =>
      refine iff_of_false ?_ (not_or.2 ⟨not_isFinite_of_infinity beyond, not_isFinite_of_infinity beyond'⟩)
      rw [not_isNumber_iff, unpack_div, beyond, beyond']
      rfl

/-! ### Comparisons -/

theorem lt_unpacked (x y : Float) : Scalar.lt x y = UnpackedFloat.lt x.toModel.unpack y.toModel.unpack := by
  have unfolded : x < y ↔ UnpackedFloat.lt x.toModel.unpack y.toModel.unpack = true :=
    ⟨of_decide_eq_true, decide_eq_true⟩
  rw [Bool.eq_iff_iff, ← unfolded]
  exact decide_eq_true_iff

/-- The order of finite floats is the order of their values. -/
theorem lt_eq_decide (first : x.isFinite) (second : y.isFinite) :
    Scalar.lt x y = decide (valueOf x < valueOf y) := by
  rw [Bool.eq_iff_iff, decide_eq_true_iff, ← lt_iff_valueOf_lt first second]
  exact decide_eq_true_iff

theorem lt_of_negative_infinity (beyond : x.toModel.unpack = .infinity .negative) (finite : y.isFinite) :
    Scalar.lt x y = true := by
  rw [lt_unpacked, beyond]
  rcases parts_of_isFinite finite with ⟨s, zero⟩ | ⟨s, size, canonical, parts⟩
  · rw [zero]
    rfl
  · rw [parts]
    cases s <;> rfl

theorem lt_of_positive_infinity (beyond : x.toModel.unpack = .infinity .positive) (finite : y.isFinite) :
    Scalar.lt x y = false ∧ Scalar.lt y x = true := by
  rw [lt_unpacked, lt_unpacked, beyond]
  rcases parts_of_isFinite finite with ⟨s, zero⟩ | ⟨s, size, canonical, parts⟩
  · rw [zero]
    exact ⟨rfl, rfl⟩
  · rw [parts]
    cases s <;> exact ⟨rfl, rfl⟩

/-- A value that is no number is below nothing and above nothing. -/
theorem lt_of_not_isNumber (none : ¬ IsNumber x) : Scalar.lt x y = false ∧ Scalar.lt y x = false := by
  rw [lt_unpacked, lt_unpacked, not_isNumber_iff.1 none]
  cases y.toModel.unpack <;> exact ⟨rfl, rfl⟩

/-! ### Shares -/

/-- A float from zero to one. -/
structure IsShare (x : Float) : Prop where
  finite : x.isFinite
  nonneg : 0 ≤ valueOf x
  le_one : valueOf x ≤ 1

theorem isShare_zero : IsShare (Scalar.zero : Float) :=
  ⟨valueOf_zero.1, valueOf_zero.2.ge, valueOf_zero.2.trans_le zero_le_one⟩

theorem isShare_one : IsShare (Scalar.one : Float) :=
  ⟨valueOf_one.1, zero_le_one.trans_eq valueOf_one.2.symm, valueOf_one.2.le⟩

/-- Every number is clamped to a share. -/
theorem isShare_clamp (number : IsNumber x) : IsShare (Scalar.clamp Scalar.zero Scalar.one x) := by
  rw [Scalar.clamp]
  rcases number with finite | ⟨s, beyond⟩
  · rw [lt_eq_decide finite valueOf_zero.1, lt_eq_decide valueOf_one.1 finite, valueOf_zero.2, valueOf_one.2]
    by_cases low : valueOf x < 0
    · rw [decide_eq_true low, if_pos rfl]
      exact isShare_zero
    rw [decide_eq_false low, if_neg Bool.false_ne_true]
    by_cases high : 1 < valueOf x
    · rw [decide_eq_true high, if_pos rfl]
      exact isShare_one
    rw [decide_eq_false high, if_neg Bool.false_ne_true]
    exact ⟨finite, not_lt.1 low, not_lt.1 high⟩
  · cases s with
    | negative =>
      rw [lt_of_negative_infinity beyond valueOf_zero.1, if_pos rfl]
      exact isShare_zero
    | positive =>
      rw [(lt_of_positive_infinity beyond valueOf_zero.1).1, (lt_of_positive_infinity beyond valueOf_one.1).2,
        if_neg Bool.false_ne_true, if_pos rfl]
      exact isShare_one

/-- A value that is no number passes the bounds unchanged. -/
theorem clamp_of_not_isNumber (none : ¬ IsNumber x) : Scalar.clamp Scalar.zero Scalar.one x = x := by
  rw [Scalar.clamp, (lt_of_not_isNumber none).1, (lt_of_not_isNumber none).2, if_neg Bool.false_ne_true,
    if_neg Bool.false_ne_true]

end CycleCost
