/-
Module: CycleCost.Proofs.Workload.Template
Purpose: What the lines of the templates do and do not do. A template has one of seven lists of lines, so each
  of these facts is decided by looking at them; the run of a program rests on nothing else about templates.
Main exports: Template.bufferSize, Template.bufferBase, Template.body_keeps, Template.turn_within,
  Template.countP_body, Template.read_sp_basing
-/
import CycleCost.Proofs.Assembly.Block
import CycleCost.Workload.Program

namespace CycleCost

open Assembly

namespace Template

/-- The bytes of stack that a template works on, none for most. -/
def bufferSize (t : Template) : Nat := t.bufferBytes.getD 0

/-- The register that memory is addressed by; a template without a buffer addresses none. -/
def bufferBase (t : Template) : Register := if t.bufferBytes.isSome then .x 1 else .zero

/-- The number of setup lines up to the one that puts the buffer's address into its register. -/
def basingLines : Template → Nat
  | memoryStrided => 3
  | loadHeavy | storeHeavy => 2
  | _ => 0

/-- The body of every template runs through to the branch at the end of the loop. -/
theorem fallsThrough_body (t : Template) : fallsThrough (t.body ++ Program.loopControl.dropLast) = true := by
  cases t <;> decide

theorem fallsThrough_setup (t : Template) : fallsThrough t.setup = true := by
  cases t <;> decide

theorem labels_setup (t : Template) : labels t.setup = [] := by
  cases t <;> decide

theorem labels_teardown (t : Template) : labels t.teardown = [] := by
  cases t <;> decide

/-- The labels of a body differ from each other and from the loop's. -/
theorem nodup_labels_body (t : Template) : (Program.loopLabel :: labels t.body).Nodup := by
  cases t <;> decide

/-- A body has exactly the declared number of instructions. -/
theorem countP_body (t : Template) :
    t.body.countP Line.isInstruction = t.instructionsPerIteration.toNat := by
  cases t <;> decide

/-- No body writes the loop's registers, the stack pointer or its own base register. -/
theorem body_keeps (t : Template) : ∀ line ∈ t.body,
    line.written ≠ some Program.counterRegister ∧ line.written ≠ some boundRegister ∧
      line.written ≠ some .sp ∧ line.written ≠ some t.bufferBase := by
  cases t <;> decide

/-- Every load and store of a turn addresses eight bytes of the buffer, from the base register. -/
theorem turn_within (t : Template) : ∀ line ∈ t.body ++ Program.loopControl,
    line.written ≠ some t.bufferBase ∧
      ∀ access ∈ line.access?, access.1 = t.bufferBase ∧ access.2 + 8 ≤ t.bufferSize := by
  cases t <;> decide

/-- No teardown touches memory. -/
theorem teardown_within (t : Template) : ∀ line ∈ t.teardown, line.access? = none := by
  cases t <;> decide

/-- A set-up writes neither the counter nor the bound. -/
theorem setup_keeps (t : Template) : ∀ line ∈ t.setup,
    line.written ≠ some Program.counterRegister ∧ line.written ≠ some boundRegister := by
  cases t <;> decide

/-- Until its base register is set, a setup touches no memory. -/
theorem basing_within (t : Template) : ∀ line ∈ t.setup.take t.basingLines, line.access? = none := by
  cases t <;> decide

/-- Once the buffer is based a set-up leaves the stack pointer alone. -/
theorem filling_keeps (t : Template) : ∀ line ∈ t.setup.drop t.basingLines,
    line.written ≠ some .sp := by
  cases t <;> decide

/-- Once its base register is set, a setup keeps it and touches only the buffer. -/
theorem filling_within (t : Template) : ∀ line ∈ t.setup.drop t.basingLines,
    line.written ≠ some t.bufferBase ∧
      ∀ access ∈ line.access?, access.1 = t.bufferBase ∧ access.2 + 8 ≤ t.bufferSize := by
  cases t <;> decide

/-- A setup moves the stack pointer down by the size of the buffer. -/
theorem read_sp_basing (t : Template) (m : Assembly.Machine) :
    (m.runBlock (t.setup.take t.basingLines)).read .sp = m.read .sp - t.bufferSize.toUInt64 := by
  cases t <;> first | rfl | exact (UInt64.sub_zero _).symm

/-- The base register holds the lowered stack pointer. -/
theorem read_base_basing (t : Template) (m : Assembly.Machine) (h : t.bufferBytes.isSome) :
    (m.runBlock (t.setup.take t.basingLines)).read t.bufferBase =
      m.read .sp - t.bufferSize.toUInt64 := by
  cases t <;> first | rfl | cases h

/-- The setup puts the buffer into place and keeps the registers of the loop. -/
theorem read_setup (t : Template) (m : Assembly.Machine) :
    (m.runBlock t.setup).read Program.counterRegister = m.read Program.counterRegister ∧
      (m.runBlock t.setup).read boundRegister = m.read boundRegister ∧
      (m.runBlock t.setup).read .sp = m.read .sp - t.bufferSize.toUInt64 ∧
      (t.bufferBytes.isSome →
        (m.runBlock t.setup).read t.bufferBase = m.read .sp - t.bufferSize.toUInt64) := by
  have split : m.runBlock t.setup =
      (m.runBlock (t.setup.take t.basingLines)).runBlock (t.setup.drop t.basingLines) := by
    rw [← Machine.runBlock_append, List.take_append_drop]
  refine ⟨m.read_runBlock fun line member => (t.setup_keeps line member).1,
    m.read_runBlock fun line member => (t.setup_keeps line member).2, ?_, fun buffered => ?_⟩
  · rw [split, Machine.read_runBlock _ t.filling_keeps,
      t.read_sp_basing]
  · rw [split, Machine.read_runBlock _ fun line member => (t.filling_within line member).1,
      t.read_base_basing m buffered]

/-- A body keeps the registers of the loop and those that hold the buffer. -/
theorem read_body (t : Template) (m : Assembly.Machine) :
    (m.runBlock t.body).read Program.counterRegister = m.read Program.counterRegister ∧
      (m.runBlock t.body).read boundRegister = m.read boundRegister ∧
      (m.runBlock t.body).read .sp = m.read .sp ∧
      (m.runBlock t.body).read t.bufferBase = m.read t.bufferBase :=
  ⟨m.read_runBlock fun line member => (t.body_keeps line member).1,
    m.read_runBlock fun line member => (t.body_keeps line member).2.1,
    m.read_runBlock fun line member => (t.body_keeps line member).2.2.1,
    m.read_runBlock fun line member => (t.body_keeps line member).2.2.2⟩

/-- A teardown moves the stack pointer up by the size of the buffer. -/
theorem read_sp_teardown (t : Template) (m : Assembly.Machine) :
    (m.runBlock t.teardown).read .sp = m.read .sp + t.bufferSize.toUInt64 := by
  cases t <;> first | rfl | exact (UInt64.add_zero _).symm

end Template

end CycleCost
