/-
Module: CycleCost.Proofs.Assembly.Encoding
Purpose: What the encoding of a repetition count is worth. Its lines are read back as wide moves, they leave the
  count in the bound register whatever it held before, and no two counts share their lines. Among all sequences
  of wide moves the encoding is a shortest one, unless the count takes a second line only because its lowest
  half-word is zero: one move into the second half-word would do there.
Main exports: Leaves, Carries, counts_are_loaded, load_is_shortest_iff, whole_half_word_takes_one
-/
import CycleCost.Proofs.Assembly.Immediate
import CycleCost.Proofs.Assembly.Notation

namespace CycleCost.Assembly

open Execution

/-! ### Sequences that load a value -/

/-- A sequence of wide moves that leaves a value in a register, whatever the register held before. -/
structure Leaves (moves : List Instruction) (r : Register) (value : UInt64) : Prop where
  wide : ∀ i ∈ moves, i.isWideMove = true
  value : ∀ m : Machine, (m.runBlock (moves.map .instruction)).read r = value

/-- The encoding of a count: its lines are read as wide moves on the bound register, there are one or two of them,
    and from their first line execution comes to the end with the count in the register. -/
structure Carries (load : List Instruction) (count : UInt64) : Prop where
  read : (load.map fun i => i.text.toList).mapM readWideMove = some load
  moves : ∀ i ∈ load, ∃ value place, i = .movz boundRegister value place ∨ i = .movk boundRegister value place
  length : load.length = if count ≤ singleImmediateLimit then 1 else 2
  reaches : ∀ m : Machine, ∃ events final, Reaches (load.map .instruction) ⟨m, 0⟩ events ⟨final, load.length⟩ ∧
    final.read boundRegister = count

/-- A machine at rest. -/
def idle : Machine := ⟨fun _ => 0, 0, ⟨false, false, false, false⟩, fun _ => 0⟩

section

variable {count : UInt64}

/-- A count up to the limit of one immediate is loaded by one instruction, a larger one by two. -/
theorem length_boundLoad (count : UInt64) :
    (boundLoad count).length = if count ≤ singleImmediateLimit then 1 else 2 := by
  rw [boundLoad]
  split <;> rfl

/-- The load leaves the count in its register, whatever was there. -/
theorem leaves_boundLoad (h : count ≤ countLimit) : Leaves (boundLoad count) boundRegister count where
  wide i member := by
    obtain ⟨value, place, rfl | rfl⟩ := eq_of_mem_boundLoad member <;> rfl
  value m := read_runBlock_boundLoad m h

/-- Lines of wide moves on general registers are read back one by one. -/
theorem mapM_readWideMove {moves : List Instruction}
    (h : ∀ i ∈ moves, i.isWideMove = true ∧ ∃ number < 31, i.written = some (.x number)) :
    (moves.map fun i => i.text.toList).mapM readWideMove = some moves := by
  induction moves with
  | nil => rfl
  | cons i rest ih =>
    obtain ⟨⟨wide, number, general, target⟩, others⟩ := List.forall_mem_cons.1 h
    rw [List.map_cons, List.mapM_cons, readWideMove_text wide target general, ih others]
    rfl

/-- A count within the limit is carried by its load. -/
theorem carries_boundLoad (h : count ≤ countLimit) : Carries (boundLoad count) count where
  read := mapM_readWideMove fun i member => ⟨(leaves_boundLoad h).wide i member, 11, by decide, by
    obtain ⟨value, place, rfl | rfl⟩ := eq_of_mem_boundLoad member <;> rfl⟩
  moves _ := eq_of_mem_boundLoad
  length := length_boundLoad count
  reaches m := by
    have labelless : (labels ((boundLoad count).map Line.instruction)).Nodup := by
      rw [labels_map_instruction]
      exact .nil
    have whole : (boundLoad count).map Line.instruction = [] ++ ((boundLoad count).map .instruction ++ []) :=
      (List.append_nil _).symm
    have run := Reaches.block labelless m _ whole (fallsThrough_boundLoad count)
    rw [List.length_nil, Nat.zero_add, List.length_map] at run
    exact ⟨_, _, run, read_runBlock_boundLoad m h⟩

/-- Equal lines are read as equal moves, and these leave equal values. -/
theorem eq_of_text_boundLoad {other : UInt64} (h : count ≤ countLimit) (fits : other ≤ countLimit)
    (same : (boundLoad other).map Instruction.text = (boundLoad count).map Instruction.text) : other = count := by
  have lines := congrArg (List.map String.toList) same
  rw [List.map_map, List.map_map] at lines
  have moves : boundLoad other = boundLoad count := by
    refine Option.some.inj (((carries_boundLoad fits).read.symm.trans ?_).trans (carries_boundLoad h).read)
    exact congrArg (List.mapM readWideMove) lines
  calc other = (idle.runBlock ((boundLoad other).map .instruction)).read boundRegister :=
        ((leaves_boundLoad fits).value idle).symm
    _ = count := moves ▸ (leaves_boundLoad h).value idle

end

/-- A count above the limit is refused with its name. Any other is loaded, and its lines are those of no other
    count. -/
theorem counts_are_loaded (count : UInt64) :
    (countLimit < count ∧ loadCount count = .error (.countTooLarge count countLimit)) ∨
      (count ≤ countLimit ∧ ∃ load, loadCount count = .ok load ∧ Carries load count ∧
        ∀ other otherLoad, loadCount other = .ok otherLoad →
          otherLoad.map Instruction.text = load.map Instruction.text → other = count) := by
  by_cases large : countLimit < count
  · exact .inl ⟨large, if_pos large⟩
  have small := UInt64.not_lt.1 large
  refine .inr ⟨small, boundLoad count, loadCount_eq small, carries_boundLoad small, ?_⟩
  intro other otherLoad loaded same
  by_cases vast : countLimit < other
  · cases loaded.symm.trans (if_pos vast)
  have fits := UInt64.not_lt.1 vast
  obtain rfl := Except.ok.inj (loaded.symm.trans (loadCount_eq fits))
  exact eq_of_text_boundLoad small fits same

/-! ### Shorter sequences -/

/-- The lowest bit that lies outside a half-word. -/
def HalfWord.outside : HalfWord → Nat
  | .bit0 => 16
  | _ => 0

/-- A half-word with all others zero has no bit outside. -/
theorem testBit_placed_outside (half : UInt16) (place : HalfWord) :
    (Machine.placed half place).toNat.testBit place.outside = false := by
  rw [Machine.toNat_placed, Nat.testBit_mul_two_pow]
  cases place with
  | bit0 => simpa [HalfWord.shift, HalfWord.outside] using Nat.testBit_lt_two_pow half.toNat_lt
  | _ => rfl

/-- Keeping all half-words but one keeps the bits outside. -/
theorem kept_outside (place : HalfWord) (half : UInt16) :
    ((1 <<< place.outside.toUInt64 &&& ~~~ Machine.placed 0xFFFF place ||| Machine.placed half place).toNat).testBit
      place.outside = true := by
  have bit : ((1 : UInt64) <<< place.outside.toUInt64 &&& ~~~ Machine.placed 0xFFFF place).toNat.testBit
      place.outside = true := by cases place <;> decide
  rw [UInt64.toNat_or, Nat.testBit_or, bit, Bool.true_or]

namespace Leaves

variable {moves : List Instruction} {number : Nat} {value : UInt64}

/-- Some instruction of the sequence writes the register: it would keep what it held before. -/
theorem exists_written (h : Leaves moves (.x number) value) : ∃ i ∈ moves, i.written = some (.x number) := by
  by_contra none
  have unwritten : ∀ line ∈ moves.map Line.instruction, line.written ≠ some (.x number) := by
    intro line member same
    obtain ⟨i, inside, rfl⟩ := List.mem_map.1 member
    exact none ⟨i, inside, same⟩
  have kept := (idle.write (.x number) (value + 1)).read_runBlock unwritten
  rw [h.value, Machine.read_write_x] at kept
  simp at kept

/-- One instruction is enough only where it clears the register: the value is one half-word with all others
    zero. -/
theorem eq_movz {i : Instruction} (h : Leaves [i] (.x number) value) :
    ∃ half place, i = .movz (.x number) half place ∧ Machine.placed half place = value := by
  have wide := h.wide i List.mem_cons_self
  obtain ⟨j, member, target⟩ := h.exists_written
  obtain rfl := List.mem_singleton.1 member
  cases j with
  | movz register half place =>
    obtain rfl := Option.some.inj target
    exact ⟨half, place, rfl, (Machine.read_write_x idle number _).symm.trans (h.value idle)⟩
  | movk register half place =>
    obtain rfl := Option.some.inj target
    -- What the register held before shows in the bits outside the half-word.
    have left (m : Machine) : m.read (.x number) &&& ~~~ Machine.placed 0xFFFF place ||| Machine.placed half place =
        value := (Machine.read_write_x m number _).symm.trans (h.value m)
    have cleared := left (idle.write (.x number) 0)
    have marked := left (idle.write (.x number) (1 <<< place.outside.toUInt64))
    rw [Machine.read_write_x] at cleared marked
    have bit := kept_outside place half
    rw [marked, ← cleared, UInt64.zero_and, UInt64.zero_or, testBit_placed_outside] at bit
    cases bit
  | _ => cases wide

end Leaves

section

variable {count : UInt64}

/-- Above sixteen bits and within the limit only the second half-word can stand alone. -/
theorem lowHalfWord_of_placed {half : UInt16} {place : HalfWord} (placed : Machine.placed half place = count)
    (large : singleImmediateLimit < count) (h : count ≤ countLimit) : lowHalfWord count = 0 := by
  have above : 65535 < count.toNat := UInt64.lt_iff_toNat_lt.1 large
  have below : count.toNat ≤ 4294967295 := UInt64.le_iff_toNat_le.1 h
  have number := Machine.toNat_placed half place
  have small := half.toNat_lt
  rw [placed] at number
  have low : (lowHalfWord count).toNat = count.toNat % 65536 := by simp [lowHalfWord]
  apply UInt16.toNat_inj.1
  rw [low]
  change _ = 0
  cases place <;> simp only [HalfWord.shift] at number <;> omega

/-- A count whose lowest half-word is zero needs no move but the one into its second half-word. -/
theorem leaves_highHalfWord (h : count ≤ countLimit) (low : lowHalfWord count = 0) :
    Leaves [.movz boundRegister (highHalfWord count) .bit16] boundRegister count where
  wide := by simp [Instruction.isWideMove]
  value m := by
    have joined := Machine.placed_low_or_high h
    rw [low, show Machine.placed 0 .bit0 = 0 from rfl, UInt64.zero_or] at joined
    exact (Machine.read_write_x m 11 _).trans joined

end

/-- The encoding of a count leaves it with as few wide moves as there can be, of whatever registers and half-words,
    unless the count is above sixteen bits and its lowest half-word is zero. Then one move does, into the second
    half-word, where the encoding has two. -/
theorem load_is_shortest_iff {count : UInt64} (h : count ≤ countLimit) :
    ∃ load, loadCount count = .ok load ∧ Leaves load boundRegister count ∧
      ((∀ other, Leaves other boundRegister count → load.length ≤ other.length) ↔
        (count ≤ singleImmediateLimit ∨ lowHalfWord count ≠ 0)) ∧
      (singleImmediateLimit < count → lowHalfWord count = 0 → load.length = 2 ∧
        Leaves [.movz boundRegister (highHalfWord count) .bit16] boundRegister count) := by
  have length := length_boundLoad count
  have one {other} (leaves : Leaves other boundRegister count) : 1 ≤ other.length := by
    obtain ⟨i, member, -⟩ := leaves.exists_written
    exact List.length_pos_of_mem member
  refine ⟨boundLoad count, loadCount_eq h, leaves_boundLoad h, ⟨fun shortest => ?_, fun exact other leaves => ?_⟩,
    fun large low => ⟨by rw [length, if_neg (UInt64.not_le.2 large)], leaves_highHalfWord h low⟩⟩
  · by_contra two
    obtain ⟨large, low⟩ := not_or.1 two
    have shorter := shortest _ (leaves_highHalfWord h (not_not.1 low))
    rw [length, if_neg large, List.length_singleton] at shorter
    omega
  · by_cases single : count ≤ singleImmediateLimit
    · rw [length, if_pos single]
      exact one leaves
    · rw [length, if_neg single]
      by_contra fewer
      obtain ⟨i, rfl⟩ := List.length_eq_one_iff.1 (Nat.le_antisymm (by omega) (one leaves))
      obtain ⟨half, place, -, placed⟩ := leaves.eq_movz
      exact (exact.resolve_left single) (lowHalfWord_of_placed placed (UInt64.not_le.1 single) h)

/-- Seventy thousand takes two moves, and no sequence of one leaves it. -/
theorem load_is_shortest_seventyThousand :
    (70000 : UInt64) ≤ countLimit ∧ ∃ load, loadCount 70000 = .ok load ∧ load.length = 2 ∧
      ∀ other, Leaves other boundRegister 70000 → load.length ≤ other.length := by
  obtain ⟨load, loaded, -, shortest, -⟩ := @load_is_shortest_iff 70000 (by decide)
  refine ⟨by decide, load, loaded, ?_, shortest.2 (.inr (by decide))⟩
  obtain rfl := Except.ok.inj (loaded.symm.trans (loadCount_eq (by decide)))
  rfl

/-- The first count above sixteen bits: the encoding has two moves, and one of another kind leaves the count. -/
theorem whole_half_word_takes_one :
    (65536 : UInt64) ≤ countLimit ∧
      (∃ load, loadCount 65536 = .ok load ∧ load.length = 2) ∧
      Leaves [.movz boundRegister 1 .bit16] boundRegister 65536 :=
  ⟨by decide, ⟨_, rfl, rfl⟩, @leaves_highHalfWord 65536 (by decide) (by decide)⟩

end CycleCost.Assembly
