/-
Module: CycleCost.Proofs.Workload.Admission
Purpose: Which repetition counts make a program. For such a count nothing about the program can fail: its work
  fits a word, its bound can be loaded, and it has a source.
Main exports: Admitted, refusal, Program.bind_of_admitted, Program.bind_of_not_admitted,
  Program.totalWork_of_admitted, Program.lines_of_admitted, Program.exists_source_of_admitted
-/
import CycleCost.Proofs.Assembly.Immediate
import CycleCost.Workload.Program

namespace CycleCost

open Assembly

/-- A repetition count that makes a program: its loop runs, and its bound can be loaded. -/
def Admitted (count : UInt64) : Prop := count ≠ 0 ∧ count ≤ countLimit

instance : DecidablePred Admitted := fun count =>
  inferInstanceAs (Decidable (count ≠ 0 ∧ count ≤ countLimit))

/-- Why a count makes no program. -/
def refusal (count : UInt64) : Fault :=
  if count = 0 then .zeroCount else .countTooLarge count countLimit

namespace Admitted

variable {count : UInt64}

theorem toNat_pos (h : Admitted count) : 0 < count.toNat :=
  UInt64.lt_iff_toNat_lt.1 (UInt64.pos_iff_ne_zero.2 h.1)

theorem toNat_lt (h : Admitted count) : count.toNat < 2 ^ 32 :=
  Nat.lt_succ_of_le (UInt64.le_iff_toNat_le.1 h.2)

end Admitted

namespace Template

/-- An iteration has at most twenty instructions. -/
theorem instructionsPerIteration_le (t : Template) : t.instructionsPerIteration.toNat ≤ 20 := by
  cases t <;> decide

theorem instructionsPerIteration_pos (t : Template) : 0 < t.instructionsPerIteration.toNat := by
  cases t <;> decide

/-- The work of an admitted count does not wrap. -/
theorem toNat_work (t : Template) {count : UInt64} (h : Admitted count) :
    (t.instructionsPerIteration * count).toNat =
      t.instructionsPerIteration.toNat * count.toNat := by
  have work := Nat.mul_le_mul t.instructionsPerIteration_le h.toNat_lt.le
  rw [UInt64.toNat_mul]
  exact Nat.mod_eq_of_lt (by omega)

end Template

namespace Program

variable {t : Template} {count : UInt64} {abi : Abi}

/-- An admitted count is bound as it is given. -/
theorem bind_of_admitted (h : Admitted count) : bind t count abi = .ok ⟨t, count, abi⟩ := by
  rw [bind, if_neg h.1, if_neg (UInt64.not_lt.2 h.2)]

/-- Any other count is refused with its reason. -/
theorem bind_of_not_admitted (h : ¬ Admitted count) : bind t count abi = .error (refusal count) := by
  rw [bind, refusal]
  split
  · rfl
  next positive =>
    rw [if_pos (UInt64.not_le.1 fun small => h ⟨positive, small⟩)]

/-- The work of an admitted count never overflows. -/
theorem totalWork_of_admitted (h : Admitted count) :
    (⟨t, count, abi⟩ : Program).totalWork = .ok (t.instructionsPerIteration * count) := by
  have work := Nat.mul_le_mul t.instructionsPerIteration_le h.toNat_lt.le
  refine if_pos ?_
  change t.instructionsPerIteration.toNat * count.toNat < 2 ^ 64
  omega

/-- The lines that set the counter and the bound. -/
def loading (p : Program) : List Line :=
  .instruction (.moveImmediate counterRegister 0) :: (boundLoad p.count).map .instruction

/-- The lines before the loop label. -/
def opening (p : Program) : List Line := p.loading ++ p.template.setup

/-- The lines between the loop and the exit call. -/
def closing (p : Program) : List Line := p.template.teardown ++ (p.abi.exitSequence 0).dropLast

/-- The call that ends the program. -/
def exitCall (p : Program) : Instruction :=
  match p.abi with
  | .darwin => .supervisorCall 0x80
  | .linux => .supervisorCall 0

/-- The lines of an admitted program: what comes before the loop, the loop, and what comes after it. -/
theorem lines_of_admitted {p : Program} (h : Admitted p.count) :
    p.lines = .ok (p.opening ++ .label loopLabel :: (p.template.body ++ loopControl
      ++ (p.closing ++ [.instruction p.exitCall]))) := by
  have exit : p.abi.exitSequence 0 = (p.abi.exitSequence 0).dropLast ++ [.instruction p.exitCall] := by
    rw [exitCall]
    cases p.abi <;> rfl
  rw [lines, loadCount_eq h.2, exit]
  simp only [opening, loading, closing, List.cons_append, List.append_assoc]
  rfl

/-- An admitted program has a source, which spells its lines. -/
theorem source_of_lines {p : Program} {lines : List Line} (h : p.lines = .ok lines) :
    p.source =
      .ok (p.header ++ (Line.label p.abi.entrySymbol).text ++ String.join (lines.map Line.text)) := by
  rw [source, h]
  rfl

/-- An admitted count has a source. -/
theorem exists_source_of_admitted {p : Program} (h : Admitted p.count) :
    ∃ text, p.source = .ok text :=
  ⟨_, source_of_lines (lines_of_admitted h)⟩

end Program

end CycleCost
