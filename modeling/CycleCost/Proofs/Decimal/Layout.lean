/-
Module: CycleCost.Proofs.Decimal.Layout
Purpose: The text of a float in a document is the spelling of a numeral: whichever notation is chosen, the
  numeral has the digits of the float and puts them at their place.
Main exports: Digits.WellFormed, Digits.unit, Digits.numeral, Digits.numeral_regular, Digits.numeral_spelled,
  Digits.numeral_scaled
-/
import CycleCost.Decimal.Layout
import CycleCost.Proofs.Decimal.Numeral

namespace CycleCost.Decimal

namespace Digits

/-- Digits as they stand in a text: there is a first one, and it is not zero. -/
structure WellFormed (d : Digits) : Prop where
  nonempty : d.digits ≠ []
  all : ∀ c ∈ d.digits, c.isDigit
  front : d.digits.head? ≠ some '0'

/-- The power of ten that the last digit counts. -/
def unit (d : Digits) : Int := d.place + 1 - d.digits.length

/-- The numeral that a document has for the digits. -/
def numeral (negative : Bool) (d : Digits) : Numeral :=
  if -5 ≤ d.place ∧ d.place ≤ 15 then
    if d.place < 0 then ⟨negative, ['0'], zeros (-d.place - 1).toNat ++ d.digits, none⟩
    else
      let whole := d.place.toNat + 1
      if d.digits.length ≤ whole then ⟨negative, d.digits ++ zeros (whole - d.digits.length), ['0'], none⟩
      else ⟨negative, d.digits.take whole, d.digits.drop whole, none⟩
  else ⟨negative, d.digits.take 1, d.digits.drop 1, some d.place⟩

section

variable {d : Digits}

theorem isDigit_of_mem_zeros {n : Nat} {c : Char} (h : c ∈ zeros n) : c.isDigit := by
  rw [List.eq_of_mem_replicate h]
  rfl

theorem WellFormed.length_pos (wellFormed : d.WellFormed) : 0 < d.digits.length :=
  List.length_pos_iff.2 wellFormed.nonempty

theorem WellFormed.head_take (wellFormed : d.WellFormed) {n : Nat} (positive : 0 < n) :
    (d.digits.take n).head? ≠ some '0' := by
  rw [List.head?_take, if_neg (by omega)]
  exact wellFormed.front

theorem WellFormed.head_append (wellFormed : d.WellFormed) (behind : List Char) :
    (d.digits ++ behind).head? ≠ some '0' := by
  obtain ⟨c, tail, shape⟩ := List.exists_cons_of_ne_nil wellFormed.nonempty
  have front := wellFormed.front
  rw [shape] at front ⊢
  exact front

/-- The numeral of well-formed digits is regular, with either sign. -/
theorem numeral_regular (wellFormed : d.WellFormed) (negative : Bool) : (d.numeral negative).Regular := by
  have taken (n : Nat) : ∀ c ∈ d.digits.take n, c.isDigit := fun c h =>
    wellFormed.all c (List.mem_of_mem_take h)
  have dropped (n : Nat) : ∀ c ∈ d.digits.drop n, c.isDigit := fun c h =>
    wellFormed.all c (List.mem_of_mem_drop h)
  have length := wellFormed.length_pos
  unfold numeral
  split
  case isTrue positional =>
    split
    case isTrue small =>
      refine ⟨by simp, by simp, ?_, .inl rfl⟩
      intro c h
      rcases List.mem_append.1 h with zero | digit
      · exact isDigit_of_mem_zeros zero
      · exact wellFormed.all c digit
    case isFalse large =>
      dsimp only
      split
      case isTrue whole =>
        refine ⟨by simp [wellFormed.nonempty], ?_, by simp, .inr (wellFormed.head_append _)⟩
        intro c h
        rcases List.mem_append.1 h with digit | zero
        · exact wellFormed.all c digit
        · exact isDigit_of_mem_zeros zero
      case isFalse split =>
        exact ⟨by simp [wellFormed.nonempty], taken _, dropped _,
          .inr (wellFormed.head_take (by omega))⟩
  case isFalse scientific =>
    exact ⟨by simp [wellFormed.nonempty], taken _, dropped _, .inr (wellFormed.head_take (by omega))⟩

/-- A numeral of a float is never a whole one, so it is read as a float again. -/
theorem numeral_isWhole (wellFormed : d.WellFormed) (negative : Bool) :
    (d.numeral negative).isWhole = false := by
  have length := wellFormed.length_pos
  unfold numeral
  split
  case isTrue positional =>
    split
    case isTrue small => simp [Numeral.isWhole, wellFormed.nonempty]
    case isFalse large =>
      dsimp only
      split
      case isTrue whole => simp [Numeral.isWhole]
      case isFalse split => simp [Numeral.isWhole]; omega
  case isFalse scientific => simp [Numeral.isWhole]

@[simp] theorem numeral_negative (d : Digits) (negative : Bool) :
    (d.numeral negative).negative = negative := by
  unfold numeral
  dsimp only
  repeat' split
  all_goals rfl

theorem fractionSpelled_of_ne_nil {digits : List Char} (nonempty : digits ≠ []) :
    Numeral.fractionSpelled digits = '.' :: digits := by
  cases digits with
  | nil => exact absurd rfl nonempty
  | cons c cs => rfl

/-- The spelling of a numeral is the positional text or the scientific one, by the place of its point. -/
theorem numeral_spelled (wellFormed : d.WellFormed) (negative : Bool) :
    (d.numeral negative).spelled = signText negative ++
      if -5 ≤ d.place ∧ d.place ≤ 15 then positionalText .document d
      else scientificText .document d := by
  have sign (n : Numeral) : n.spelled = signText n.negative ++ n.unsignedSpelled := by
    unfold Numeral.spelled signText
    split <;> rfl
  rw [sign, numeral_negative]
  congr 1
  unfold numeral
  split
  case isTrue positional =>
    unfold positionalText
    split
    case isTrue small =>
      have nonempty : zeros (-d.place - 1).toNat ++ d.digits ≠ [] := by simp [wellFormed.nonempty]
      rw [Numeral.unsignedSpelled, fractionSpelled_of_ne_nil nonempty]
      simp [Numeral.exponentSpelled]
    case isFalse large =>
      dsimp only
      split
      case isTrue whole =>
        simp [Numeral.unsignedSpelled, Numeral.exponentSpelled, Numeral.fractionSpelled, Layout.document]
      case isFalse split =>
        have nonempty : d.digits.drop (d.place.toNat + 1) ≠ [] := by simp; omega
        simp [Numeral.unsignedSpelled, Numeral.exponentSpelled, fractionSpelled_of_ne_nil nonempty]
  case isFalse scientific =>
    have exponent : Numeral.exponentSpelled (some d.place) =
        'e' :: ((if d.place < 0 then "-" else Layout.document.exponentSign) ++
          toString d.place.natAbs).toList := by
      rw [Numeral.exponentSpelled]
      split <;> simp [Layout.document]
    unfold scientificText Numeral.unsignedSpelled
    rw [exponent]
    cases d.digits.drop 1 with
    | nil => simp [Numeral.fractionSpelled]
    | cons c cs => simp [Numeral.fractionSpelled]

/-- The digits of the numeral, counted in the place of its last one, are the digits with some zeros behind
    them, counted in a place lower by as much. -/
theorem numeral_scaled (wellFormed : d.WellFormed) (negative : Bool) :
    let n := d.numeral negative
    ∃ k : Nat, digitsValue (n.whole ++ n.fraction) = digitsValue d.digits * 10 ^ k ∧
      n.exponent.getD 0 - n.fraction.length = d.unit - k := by
  have length := wellFormed.length_pos
  dsimp only
  unfold numeral unit
  split
  case isTrue positional =>
    split
    case isTrue small =>
      refine ⟨0, ?_, ?_⟩
      · have zero : (['0'] : List Char) = zeros 1 := rfl
        rw [zero, digitsValue_append, digitsValue_append, zeros, zeros, digitsValue_replicate_zero,
          digitsValue_replicate_zero]
        simp
      · simp [zeros]
        omega
    case isFalse large =>
      dsimp only
      split
      case isTrue whole =>
        refine ⟨d.place.toNat + 1 - d.digits.length + 1, ?_, ?_⟩
        · have zero : (['0'] : List Char) = zeros 1 := rfl
          rw [zero, digitsValue_append, digitsValue_append, zeros, zeros, digitsValue_replicate_zero,
            digitsValue_replicate_zero]
          simp [Nat.pow_succ, Nat.mul_assoc]
        · simp
          omega
      case isFalse split =>
        refine ⟨0, by simp, ?_⟩
        simp
        omega
  case isFalse scientific =>
    refine ⟨0, by rw [List.take_append_drop]; simp, ?_⟩
    simp
    omega

end

end Digits

end CycleCost.Decimal
