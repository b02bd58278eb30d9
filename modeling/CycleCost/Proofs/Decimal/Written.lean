/-
Module: CycleCost.Proofs.Decimal.Written
Purpose: The text of a finite float in a document is a numeral, and this numeral is read as the same float.
Main exports: written, text_document, written_regular, written_isWhole, written_toFloat
-/
import CycleCost.Proofs.Decimal.Shortest

namespace CycleCost.Decimal

/-- The numeral that a document has for a float. -/
def written (x : Float) : Numeral :=
  match decode x with
  | .finite negative size => (shortest Layout.document.tie size).numeral negative
  | .zero negative | .infinite negative => ⟨negative, ['0'], ['0'], none⟩
  | .notNumber => ⟨false, ['0'], ['0'], none⟩

section

variable {x : Float} {negative : Bool} {size : Magnitude}

/-- The shortest digits of a finite float are well-formed, however ties are broken. -/
theorem shortest_wellFormed (decoded : decode x = .finite negative size) (tie : Tie) :
    (shortest tie size).WellFormed := by
  obtain ⟨c, unit, positive, _, digits⟩ := exists_units_of_shortest (decode_canonical decoded) tie
  rw [digits]
  exact Digits.ofUnits_wellFormed positive unit

theorem zeroNumeral_regular (negative : Bool) : Numeral.Regular ⟨negative, ['0'], ['0'], none⟩ :=
  ⟨by simp, by simp, by simp, .inl rfl⟩

/-- What is written for a float is a regular numeral. -/
theorem written_regular (x : Float) : (written x).Regular := by
  unfold written
  split
  · next decoded => exact Digits.numeral_regular (shortest_wellFormed decoded _) _
  · exact zeroNumeral_regular _
  · exact zeroNumeral_regular _
  · exact zeroNumeral_regular _

/-- What is written for a float shows a point or an exponent. -/
theorem written_isWhole (x : Float) : (written x).isWhole = false := by
  unfold written
  split
  · next decoded => exact Digits.numeral_isWhole (shortest_wellFormed decoded _) _
  · rfl
  · rfl
  · rfl

/-- A finite float is written as a numeral. -/
theorem text_document (finite : x.isFinite) :
    Layout.document.text x = String.ofList (written x).spelled := by
  rcases (isFinite_iff x).1 finite with ⟨negative, decoded⟩ | ⟨negative, size, decoded⟩
  · rw [Layout.text, written, decoded]
    cases negative <;> rfl
  · rw [Layout.text, written, decoded]
    dsimp only
    rw [Digits.numeral_spelled (shortest_wellFormed decoded _)]
    refine congrArg (fun text => String.ofList (signText negative ++ text)) (if_congr ?_ rfl rfl)
    exact (Bool.and_eq_true_iff ..).trans (and_congr decide_eq_true_iff decide_eq_true_iff)

/-- The numeral of a finite float is read as the float. -/
theorem written_toFloat (finite : x.isFinite) : (written x).toFloat = x := by
  rcases (isFinite_iff x).1 finite with ⟨negative, decoded⟩ | ⟨negative, size, decoded⟩
  · rw [written, decoded]
    exact nearestFloat_zero decoded _
  · rw [written, decoded]
    dsimp only
    have wellFormed := shortest_wellFormed decoded Layout.document.tie
    obtain ⟨k, digits, exponent⟩ := Digits.numeral_scaled wellFormed negative
    obtain ⟨c, unit, positive, near, shape⟩ := exists_units_of_shortest (decode_canonical decoded)
      Layout.document.tie
    have value := Digits.ofUnits_value c unit
    rw [← shape] at value
    rw [Numeral.toFloat, Digits.numeral_negative, digits, exponent]
    generalize digitsValue (shortest Layout.document.tie size).digits = digits at value ⊢
    have same : ((digits * 10 ^ k : Nat) : ℚ) * 10 ^ ((shortest Layout.document.tie size).unit - k) =
        c * 10 ^ unit := by
      rw [← value, zpow_sub₀ (by norm_num), zpow_natCast]
      push_cast
      field_simp
    refine nearestFloat_near decoded ?_ (same ▸ near)
    have reached : (0 : ℚ) < c * 10 ^ unit :=
      mul_pos (by exact_mod_cast positive) (zpow_pos (by norm_num) unit)
    rw [← same] at reached
    exact_mod_cast pos_of_mul_pos_left reached (zpow_pos (by norm_num) _).le

end

end CycleCost.Decimal
