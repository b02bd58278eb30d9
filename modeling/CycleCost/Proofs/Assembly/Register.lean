/-
Module: CycleCost.Proofs.Assembly.Register
Purpose: What instructions do to registers and flags. An instruction changes the register it writes and no
  other one, and the signed conditions compare the operands as signed numbers.
Main exports: Instruction.written, Machine.read_perform_of_written_ne, Flags.satisfy_less_iff
-/
import CycleCost.Assembly.Machine

namespace CycleCost.Assembly

namespace Machine

/-! ### Reading and writing registers -/

@[simp] theorem read_write_x (m : Machine) (number : Nat) (value : UInt64) :
    (m.write (.x number) value).read (.x number) = value := by
  simp [write, read]

/-- Writing a register leaves the others as they are. -/
theorem read_write_of_ne (m : Machine) {r other : Register} (value : UInt64) (h : r ≠ other) :
    (m.write r value).read other = m.read other := by
  cases r <;> cases other <;> simp_all [write, read, eq_comm]

@[simp] theorem read_storeWord (m : Machine) (address word : UInt64) (r : Register) :
    (m.storeWord address word).read r = m.read r := by
  cases r <;> rfl

@[simp] theorem read_withFlags (m : Machine) (flags : Flags) (r : Register) :
    ({ m with flags := flags } : Machine).read r = m.read r := by
  cases r <;> rfl

end Machine

/-- The register that an instruction writes, if there is one. -/
def Instruction.written : Instruction → Option Register
  | .moveImmediate target _ | .moveRegister target _ | .movz target _ _ | .movk target _ _
  | .add target _ _ | .sub target _ _ | .load target _ _ => some target
  | .compareImmediate _ _ | .compareRegister _ _ | .store _ _ _ | .branch _ | .branchIf _ _
  | .supervisorCall _ => none

/-- A register that an instruction does not write is the same after it. -/
theorem Machine.read_perform_of_written_ne (m : Machine) {i : Instruction} {r : Register}
    (h : i.written ≠ some r) : (m.perform i).1.read r = m.read r := by
  cases i with
  | compareImmediate left value => exact read_withFlags m _ r
  | compareRegister left right => exact read_withFlags m _ r
  | store source base offset => exact read_storeWord m _ _ r
  | branch target => rfl
  | branchIf condition target => rfl
  | supervisorCall number => rfl
  | _ => exact read_write_of_ne m _ fun same => h (congrArg some same)

/-! ### Signed conditions -/

/-- The sign bit of a word. -/
theorem sign_eq_decide (word : UInt64) :
    (word >>> 63 == 1) = decide (Nat.pow 2 63 ≤ word.toNat) := by
  have := word.toNat_lt
  rw [Bool.eq_iff_iff]
  simp [← UInt64.toNat_inj, Nat.shiftRight_eq_div_pow]
  omega

/-- A word read as a signed number: from the sign bit on, the words are negative. -/
theorem toInt_toInt64 (word : UInt64) :
    word.toInt64.toInt =
      if Nat.pow 2 63 ≤ word.toNat then (word.toNat : Int) - (Nat.pow 2 64 : Nat) else word.toNat := by
  have := word.toNat_lt
  change word.toBitVec.toInt = _
  rw [BitVec.toInt_eq_toNat_cond]
  simp only [UInt64.toNat_toBitVec, Nat.pow_eq]
  split <;> split <;> omega

namespace Flags

/-- After a comparison, `less` holds exactly when the left operand is the smaller signed number. -/
theorem satisfy_less_iff (left right : UInt64) :
    (ofDifference left right).satisfy .less = true ↔ left.toInt64 < right.toInt64 := by
  have leftSmall := left.toNat_lt
  have rightSmall := right.toNat_lt
  have difference : (left - right).toNat =
      if right.toNat ≤ left.toNat then left.toNat - right.toNat
      else 2 ^ 64 + left.toNat - right.toNat := by
    rw [UInt64.toNat_sub]
    split <;> omega
  simp only [satisfy, ofDifference, sign_eq_decide, Int64.lt_iff_toInt_lt, toInt_toInt64, Nat.pow_eq]
  -- Only the three numbers matter now: the borrow and the two sign bits decide every case.
  generalize (left - right).toNat = d at difference
  grind

/-- Below the sign bit the signed order is the order of the numbers. -/
theorem satisfy_less_iff_of_small {left right : UInt64} (leftSmall : left.toNat < Nat.pow 2 63)
    (rightSmall : right.toNat < Nat.pow 2 63) :
    (ofDifference left right).satisfy .less = true ↔ left.toNat < right.toNat := by
  rw [satisfy_less_iff, Int64.lt_iff_toInt_lt, toInt_toInt64, toInt_toInt64,
    if_neg (Nat.not_le.2 leftSmall), if_neg (Nat.not_le.2 rightSmall), Int.ofNat_lt]

/-- The other condition holds exactly when `less` does not. -/
theorem satisfy_greaterOrEqual_iff_of_small {left right : UInt64} (leftSmall : left.toNat < Nat.pow 2 63)
    (rightSmall : right.toNat < Nat.pow 2 63) :
    (ofDifference left right).satisfy .greaterOrEqual = true ↔ right.toNat ≤ left.toNat := by
  have opposite (f : Flags) : f.satisfy .greaterOrEqual = !f.satisfy .less := by
    rw [satisfy, satisfy, bne, Bool.not_not]
  rw [opposite, Bool.not_eq_true', ← Bool.not_eq_true, satisfy_less_iff_of_small leftSmall rightSmall,
    Nat.not_lt]

end Flags

end CycleCost.Assembly
