/-
Module: CycleCost.Proofs.Assembly.Notation
Purpose: Reading assembler notation. A wide move is an instruction that sets one half-word of a register; the
  reader knows the mnemonic, the operands between commas, and the shift that names a half-word. What an
  instruction is spelled as is read as that instruction.
Main exports: Instruction.isWideMove, readWideMove, readWideMove_text
-/
import CycleCost.Proofs.Assembly.Register
import CycleCost.Proofs.Decimal.Numeral
import CycleCost.Proofs.Text.Lines

namespace CycleCost.Assembly

open Decimal (parseUnsigned parseUnsigned_repr not_mem_repr)

/-- An instruction that sets one half-word of a register. -/
def Instruction.isWideMove : Instruction → Bool
  | .movz _ _ _ | .movk _ _ _ => true
  | _ => false

/-! ### The reader -/

/-- The general registers. The number that is left over names the zero register or the stack pointer. -/
def generalRegisters : List Register := (List.range 31).map .x

/-- The general register of a name. -/
def readRegister (name : List Char) : Option Register := generalRegisters.find? fun r => r.text.toList == name

/-- An immediate of sixteen bits. -/
def readImmediate : List Char → Option UInt16
  | '#' :: digits => (parseUnsigned UInt16.size digits).map UInt16.ofNat
  | _ => none

/-- The half-word that begins at a bit. -/
def halfWordAt : Nat → Option HalfWord
  | 0 => some .bit0
  | 16 => some .bit16
  | 32 => some .bit32
  | 48 => some .bit48
  | _ => none

/-- The half-word that a shift to the left selects. -/
def readShift : List Char → Option HalfWord
  | 'l' :: 's' :: 'l' :: ' ' :: '#' :: digits => (parseUnsigned 64 digits).bind halfWordAt
  | _ => none

/-- The wide move of a mnemonic. -/
def wideMoveNamed (mnemonic : List Char) : Option (Register → UInt16 → HalfWord → Instruction) :=
  if mnemonic = "movz".toList then some .movz
  else if mnemonic = "movk".toList then some .movk
  else none

/-- The wide move that a line spells: the mnemonic, then the register, the immediate, and the shift unless the
    lowest half-word is meant. -/
def readWideMove (line : List Char) : Option Instruction := do
  let mnemonic := Text.firstWord line
  let move ← wideMoveNamed mnemonic
  let operands := (Text.split ',' ((Text.trimLeft line).drop mnemonic.length)).map Text.trimLeft
  match operands with
  | [target, value] => return move (← readRegister target) (← readImmediate value) .bit0
  | [target, value, shift] => return move (← readRegister target) (← readImmediate value) (← readShift shift)
  | _ => none

/-! ### What is spelled is read -/

theorem toList_text_general (number : Nat) : (Register.x number).text.toList = 'x' :: number.repr.toList := by
  rw [Register.text, String.toList_append]
  rfl

theorem readRegister_text {number : Nat} (h : number < 31) :
    readRegister (Register.x number).text.toList = some (.x number) := by
  revert number
  decide +kernel

theorem readImmediate_spelled (value : UInt16) : readImmediate ('#' :: value.toNat.repr.toList) = some value := by
  rw [readImmediate, parseUnsigned_repr value.toNat_lt]
  exact congrArg some UInt16.ofNat_toNat

theorem toList_text_shifted {place : HalfWord} (h : place ≠ .bit0) :
    place.text.toList = ',' :: ' ' :: ("lsl #".toList ++ place.shift.repr.toList) := by
  cases place with
  | bit0 => exact absurd rfl h
  | _ => decide +kernel

theorem readShift_spelled (place : HalfWord) : readShift ("lsl #".toList ++ place.shift.repr.toList) = some place := by
  cases place <;> decide +kernel

/-- The line of a mnemonic with the operands of a wide move. -/
def wideMoveLine (mnemonic : List Char) (target : Register) (value : UInt16) (place : HalfWord) : List Char :=
  mnemonic ++ ' ' :: (target.text.toList ++ ',' :: ' ' :: '#' :: (value.toNat.repr.toList ++ place.text.toList))

theorem toList_text_movz (target : Register) (value : UInt16) (place : HalfWord) :
    (Instruction.movz target value place).text.toList = wideMoveLine "movz".toList target value place := by
  simp only [Instruction.text, String.toList_append, List.append_assoc]
  rfl

theorem toList_text_movk (target : Register) (value : UInt16) (place : HalfWord) :
    (Instruction.movk target value place).text.toList = wideMoveLine "movk".toList target value place := by
  simp only [Instruction.text, String.toList_append, List.append_assoc]
  rfl

/-- The operands of a wide move are cut at the commas between them. -/
theorem split_operands (number : Nat) (value : UInt16) (place : HalfWord) :
    (Text.split ',' (' ' :: ((Register.x number).text.toList
        ++ ',' :: ' ' :: '#' :: (value.toNat.repr.toList ++ place.text.toList)))).map Text.trimLeft =
      (Register.x number).text.toList :: ('#' :: value.toNat.repr.toList)
        :: (if place = .bit0 then [] else ["lsl #".toList ++ place.shift.repr.toList]) := by
  have name : ',' ∉ ' ' :: 'x' :: number.repr.toList := by
    simp only [List.mem_cons, not_or]
    exact ⟨by decide, by decide, not_mem_repr (by decide) number⟩
  have immediate : ',' ∉ ' ' :: '#' :: value.toNat.repr.toList := by
    simp only [List.mem_cons, not_or]
    exact ⟨by decide, by decide, not_mem_repr (by decide) value.toNat⟩
  have shift : ',' ∉ ' ' :: ("lsl #".toList ++ place.shift.repr.toList) := by cases place <;> decide +kernel
  rw [toList_text_general, List.cons_append, ← List.cons_append, ← List.cons_append, Text.split_append name,
    ← List.cons_append, ← List.cons_append]
  by_cases low : place = .bit0
  · have none : place.text.toList = [] := by rw [low]; rfl
    rw [if_pos low, none, List.append_nil, Text.split_of_not_mem immediate]
    rfl
  · rw [if_neg low, toList_text_shifted low, Text.split_append immediate, Text.split_of_not_mem shift]
    rfl

/-- A mnemonic that the reader knows is the first word of its line. -/
theorem firstWord_of_known {mnemonic : List Char} {move : Register → UInt16 → HalfWord → Instruction}
    (known : wideMoveNamed mnemonic = some move) (rest : List Char) :
    Text.firstWord (mnemonic ++ ' ' :: rest) = mnemonic ∧
      Text.trimLeft (mnemonic ++ ' ' :: rest) = mnemonic ++ ' ' :: rest := by
  rw [wideMoveNamed] at known
  split at known
  next same => exact same ▸ ⟨rfl, rfl⟩
  next =>
    split at known
    next same => exact same ▸ ⟨rfl, rfl⟩
    next => cases known

/-- A wide move is read back from its line. -/
theorem readWideMove_line {mnemonic : List Char} {move : Register → UInt16 → HalfWord → Instruction}
    (known : wideMoveNamed mnemonic = some move) {number : Nat} (h : number < 31) (value : UInt16)
    (place : HalfWord) :
    readWideMove (wideMoveLine mnemonic (.x number) value place) = some (move (.x number) value place) := by
  obtain ⟨word, front⟩ := firstWord_of_known known ((Register.x number).text.toList
    ++ ',' :: ' ' :: '#' :: (value.toNat.repr.toList ++ place.text.toList))
  rw [readWideMove, wideMoveLine, word, known, front, List.drop_left]
  simp only [Option.bind_eq_bind, Option.bind_some, split_operands]
  by_cases low : place = .bit0
  · rw [if_pos low, low]
    simp only [readRegister_text h, readImmediate_spelled, Option.bind_some]
    rfl
  · rw [if_neg low]
    simp only [readRegister_text h, readImmediate_spelled, readShift_spelled, Option.bind_some]
    rfl

/-- The text of a wide move on a general register is read as that instruction. -/
theorem readWideMove_text {i : Instruction} (moves : i.isWideMove = true) {number : Nat}
    (target : i.written = some (.x number)) (h : number < 31) : readWideMove i.text.toList = some i := by
  cases i with
  | movz register value place =>
    obtain rfl := Option.some.inj target
    rw [toList_text_movz]
    exact readWideMove_line rfl h value place
  | movk register value place =>
    obtain rfl := Option.some.inj target
    rw [toList_text_movk]
    exact readWideMove_line rfl h value place
  | _ => cases moves

end CycleCost.Assembly
