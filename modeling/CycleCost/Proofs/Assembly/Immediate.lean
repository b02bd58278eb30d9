/-
Module: CycleCost.Proofs.Assembly.Immediate
Purpose: The instructions that load a repetition count, executed: they leave the count in the bound register
  and touch no other one.
Main exports: Machine.toNat_placed, boundLoad, loadCount_eq, eq_of_mem_boundLoad, read_runBlock_boundLoad
-/
import CycleCost.Assembly.Immediate
import CycleCost.Proofs.Assembly.Block
import Mathlib.Data.Nat.Bitwise

namespace CycleCost.Assembly

/-! ### Half-words -/

namespace Machine

/-- A half-word with all others zero, as a number. -/
theorem toNat_placed (value : UInt16) (place : HalfWord) :
    (placed value place).toNat = value.toNat * 2 ^ place.shift := by
  have small := value.toNat_lt
  cases place <;>
    simp only [placed, HalfWord.shift, UInt64.toNat_shiftLeft, UInt16.toNat_toUInt64, Nat.shiftLeft_eq] <;>
    refine Nat.mod_eq_of_lt ?_ <;> simp <;> omega

/-- The lowest half-word is the number itself. -/
theorem toNat_placed_bit0 (value : UInt16) : (placed value .bit0).toNat = value.toNat :=
  (toNat_placed value .bit0).trans (Nat.mul_one _)

/-- Filling in the second half-word keeps the lowest one. -/
theorem placed_bit0_and_not_bit16 (value : UInt16) :
    placed value .bit0 &&& ~~~ placed 0xFFFF .bit16 = placed value .bit0 := by
  apply UInt64.toNat_inj.1
  rw [UInt64.toNat_and, toNat_placed_bit0, ← Nat.mod_eq_of_lt value.toNat_lt,
    ← Nat.and_two_pow_sub_one_eq_mod, Nat.and_assoc]
  rfl

/-- A count within the limit is the join of its two half-words. -/
theorem placed_low_or_high {count : UInt64} (h : count ≤ countLimit) :
    placed (lowHalfWord count) .bit0 ||| placed (highHalfWord count) .bit16 = count := by
  have small : count.toNat < 2 ^ 32 := Nat.lt_succ_of_le (UInt64.le_iff_toNat_le.1 h)
  have low : (lowHalfWord count).toNat = count.toNat % 2 ^ 16 := by simp [lowHalfWord]
  have high : (highHalfWord count).toNat = count.toNat / 2 ^ 16 := by
    simp [highHalfWord, Nat.shiftRight_eq_div_pow]
    omega
  apply UInt64.toNat_inj.1
  rw [UInt64.toNat_or, toNat_placed_bit0, toNat_placed, low, high, Nat.lor_comm, Nat.mul_comm, HalfWord.shift,
    ← Nat.two_pow_add_eq_or_of_lt (Nat.mod_lt _ (by decide))]
  exact Nat.div_add_mod _ _

end Machine

/-! ### Loading the bound -/

/-- The instructions that load a count within the limit. -/
def boundLoad (count : UInt64) : List Instruction :=
  if count ≤ singleImmediateLimit then [.movz boundRegister (lowHalfWord count) .bit0]
  else [.movz boundRegister (lowHalfWord count) .bit0, .movk boundRegister (highHalfWord count) .bit16]

/-- A count within the limit can be loaded. -/
theorem loadCount_eq {count : UInt64} (h : count ≤ countLimit) :
    loadCount count = .ok (boundLoad count) := by
  rw [loadCount, if_neg (UInt64.not_lt.2 h), boundLoad]
  split <;> rfl

theorem fallsThrough_boundLoad (count : UInt64) :
    fallsThrough ((boundLoad count).map .instruction) = true := by
  rw [boundLoad]
  split <;> rfl

/-- A bound is loaded by wide moves into the bound register. -/
theorem eq_of_mem_boundLoad {count : UInt64} {i : Instruction} (h : i ∈ boundLoad count) :
    ∃ half place, i = .movz boundRegister half place ∨ i = .movk boundRegister half place := by
  rw [boundLoad] at h
  split at h
  · exact ⟨_, _, .inl (List.mem_singleton.1 h)⟩
  · rcases List.mem_cons.1 h with first | second
    · exact ⟨_, _, .inl first⟩
    · exact ⟨_, _, .inr (List.mem_singleton.1 second)⟩

/-- Loading a bound writes the bound register only, and touches no memory. -/
theorem effect_of_mem_boundLoad {count : UInt64} {line : Line}
    (h : line ∈ (boundLoad count).map .instruction) :
    line.written = some boundRegister ∧ line.access? = none := by
  obtain ⟨i, member, rfl⟩ := List.mem_map.1 h
  obtain ⟨half, place, rfl | rfl⟩ := eq_of_mem_boundLoad member <;> exact ⟨rfl, rfl⟩

/-- Whatever the bound register held before, it holds the count afterwards. -/
theorem read_runBlock_boundLoad (m : Machine) {count : UInt64} (h : count ≤ countLimit) :
    (m.runBlock ((boundLoad count).map .instruction)).read boundRegister = count := by
  rw [boundLoad]
  split
  next single =>
    have small : count.toNat < 2 ^ 16 := Nat.lt_succ_of_le (UInt64.le_iff_toNat_le.1 single)
    have placed : Machine.placed (lowHalfWord count) .bit0 = count := by
      apply UInt64.toNat_inj.1
      rw [Machine.toNat_placed_bit0]
      simp [lowHalfWord]
      omega
    exact (Machine.read_write_x m 11 _).trans placed
  next double =>
    have first : (m.perform (.movz boundRegister (lowHalfWord count) .bit0)).1.read boundRegister =
        Machine.placed (lowHalfWord count) .bit0 := Machine.read_write_x m 11 _
    refine (Machine.read_write_x _ 11 _).trans ?_
    rw [first, Machine.placed_bit0_and_not_bit16, Machine.placed_low_or_high h]

end CycleCost.Assembly
