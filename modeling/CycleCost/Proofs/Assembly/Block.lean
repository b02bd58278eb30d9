/-
Module: CycleCost.Proofs.Assembly.Block
Purpose: Straight pieces of a program. A block whose branches all go to the line behind them is executed line
  by line, whatever the branches decide, so what it does to the machine and the events it leaves are
  functions of its lines. Executions can be put together, and a program has only one.
Main exports: Machine.runBlock, Machine.eventsOf, placesOf, fallsThrough, Reaches.trans, Reaches.block,
  Reaches.only, Machine.read_runBlock,
  Machine.exists_access_of_mem_eventsOf
-/
import CycleCost.Proofs.Assembly.Register

namespace CycleCost.Assembly

namespace Line

/-- The name that a line gives to its place. -/
def label? : Line → Option String
  | .instruction _ => none
  | .label name => some name

/-- The register that a line writes. -/
def written : Line → Option Register
  | .instruction i => i.written
  | .label _ => none

/-- The base register and the offset of a load or a store. -/
def access? : Line → Option (Register × Nat)
  | .instruction (.load _ base offset) | .instruction (.store _ base offset) => some (base, offset)
  | _ => none

end Line

/-- The labels of a list of lines, in order. -/
def labels (lines : List Line) : List String := lines.filterMap Line.label?

@[simp] theorem labels_nil : labels [] = [] := rfl

@[simp] theorem labels_label (name : String) (lines : List Line) :
    labels (.label name :: lines) = name :: labels lines := rfl

@[simp] theorem labels_instruction (i : Instruction) (lines : List Line) :
    labels (.instruction i :: lines) = labels lines := rfl

@[simp] theorem labels_append (front back : List Line) :
    labels (front ++ back) = labels front ++ labels back := List.filterMap_append

@[simp] theorem labels_map_instruction (list : List Instruction) :
    labels (list.map .instruction) = [] := by
  induction list with
  | nil => rfl
  | cons i rest ih => exact ih

/-- The places of the instructions of a block that begins at a place. -/
def placesOf (place : Nat) : List Line → List Nat
  | [] => []
  | .label _ :: rest => placesOf (place + 1) rest
  | .instruction _ :: rest => place :: placesOf (place + 1) rest

theorem placesOf_append (place : Nat) (front back : List Line) :
    placesOf place (front ++ back) = placesOf place front ++ placesOf (place + front.length) back := by
  induction front generalizing place with
  | nil => rfl
  | cons line rest ih =>
    cases line <;> simp [placesOf, ih, Nat.add_comm, Nat.add_left_comm]

/-- A block has as many places as instructions. -/
@[simp] theorem length_placesOf (place : Nat) (block : List Line) :
    (placesOf place block).length = block.countP Line.isInstruction := by
  induction block generalizing place with
  | nil => rfl
  | cons line rest ih => cases line <;> simp [placesOf, List.countP_cons, Line.isInstruction, ih]

/-- The places of a block lie within it. -/
theorem placesOf_bounds {place p : Nat} {block : List Line} (h : p ∈ placesOf place block) :
    place ≤ p ∧ p < place + block.length := by
  induction block generalizing place with
  | nil => simp [placesOf] at h
  | cons line rest ih =>
    have later (inside : p ∈ placesOf (place + 1) rest) :
        place ≤ p ∧ p < place + (line :: rest).length := by
      have := ih inside
      rw [List.length_cons]
      omega
    cases line with
    | label name => exact later h
    | instruction i =>
      rcases List.mem_cons.1 h with rfl | inside
      · rw [List.length_cons]
        omega
      · exact later inside

namespace Machine

/-- The machine after the instructions of a block, one behind the other. -/
def runBlock (m : Machine) : List Line → Machine
  | [] => m
  | .label _ :: rest => m.runBlock rest
  | .instruction i :: rest => (m.perform i).1.runBlock rest

/-- The events of a block that begins at a place. -/
def eventsOf (m : Machine) (place : Nat) : List Line → List Event
  | [] => []
  | .label _ :: rest => m.eventsOf (place + 1) rest
  | .instruction i :: rest =>
    ⟨place, (m.perform i).2⟩ :: (m.perform i).1.eventsOf (place + 1) rest

theorem runBlock_append (m : Machine) (front back : List Line) :
    m.runBlock (front ++ back) = (m.runBlock front).runBlock back := by
  induction front generalizing m with
  | nil => rfl
  | cons line rest ih => cases line <;> exact ih _

/-- The events of a block are those of its front, then those of its back from where the front ended. -/
theorem eventsOf_append (m : Machine) (place : Nat) (front back : List Line) :
    m.eventsOf place (front ++ back) =
      m.eventsOf place front ++ (m.runBlock front).eventsOf (place + front.length) back := by
  induction front generalizing m place with
  | nil => rfl
  | cons line rest ih =>
    cases line <;> simp [eventsOf, runBlock, ih, Nat.add_comm, Nat.add_left_comm]

/-- Every instruction of a block is executed once, in order. -/
@[simp] theorem map_position_eventsOf (m : Machine) (place : Nat) (block : List Line) :
    (m.eventsOf place block).map (·.position) = placesOf place block := by
  induction block generalizing m place with
  | nil => rfl
  | cons line rest ih => cases line <;> simp [eventsOf, placesOf, ih]

/-- The events of a block lie within it. -/
theorem position_bounds {m : Machine} {place : Nat} {block : List Line} {event : Event}
    (h : event ∈ m.eventsOf place block) : place ≤ event.position ∧ event.position < place + block.length :=
  placesOf_bounds (m.map_position_eventsOf place block ▸ List.mem_map_of_mem h)

/-- A register that no line of a block writes is the same after it. -/
theorem read_runBlock (m : Machine) {block : List Line} {r : Register}
    (kept : ∀ line ∈ block, line.written ≠ some r) : (m.runBlock block).read r = m.read r := by
  induction block generalizing m with
  | nil => rfl
  | cons line rest ih =>
    obtain ⟨first, others⟩ := List.forall_mem_cons.1 kept
    cases line with
    | label name => exact ih m others
    | instruction i => exact (ih _ others).trans (m.read_perform_of_written_ne first)

/-- Memory is touched by the loads and stores of a block, each at its offset from its base register; a base
    register that the block keeps has the value from before the block. -/
theorem exists_access_of_mem_eventsOf {m : Machine} {place : Nat} {block : List Line} {event : Event}
    (member : event ∈ m.eventsOf place block) {address : UInt64}
    (touches : event.effect = .accessed address) :
    ∃ line ∈ block, ∃ access ∈ line.access?,
      (∀ other ∈ block, other.written ≠ some access.1) →
        address = m.read access.1 + access.2.toUInt64 := by
  induction block generalizing m place with
  | nil => simp [eventsOf] at member
  | cons line rest ih =>
    cases line with
    | label name =>
      obtain ⟨line, inside, access, has, value⟩ := ih member
      exact ⟨line, .tail _ inside, access, has, fun kept => value (List.forall_mem_cons.1 kept).2⟩
    | instruction i =>
      rcases List.mem_cons.1 member with rfl | later
      · cases i with
        | load target base offset =>
          exact ⟨_, .head _, (base, offset), rfl, fun _ => (Effect.accessed.inj touches).symm⟩
        | store source base offset =>
          exact ⟨_, .head _, (base, offset), rfl, fun _ => (Effect.accessed.inj touches).symm⟩
        | _ => cases touches
      · obtain ⟨line, inside, access, has, value⟩ := ih later
        refine ⟨line, .tail _ inside, access, has, fun kept => ?_⟩
        obtain ⟨first, others⟩ := List.forall_mem_cons.1 kept
        rw [value others, m.read_perform_of_written_ne first]

end Machine

/-- Control goes on with the next line: the instruction is no call, and a branch has its label there. -/
def Instruction.continues (i : Instruction) (next : Option Line) : Bool :=
  match i with
  | .branch target | .branchIf _ target => next == some (.label target)
  | .supervisorCall _ => false
  | _ => true

/-- Control goes through a block line by line, whether or not its branches are taken. -/
def fallsThrough : List Line → Bool
  | [] => true
  | .label _ :: rest => fallsThrough rest
  | .instruction i :: rest => i.continues rest.head? && fallsThrough rest

/-- An instruction that continues with nothing behind it is no branch, so it continues with any line. -/
theorem Instruction.continues_append {i : Instruction} {rest : List Line} (back : List Line)
    (h : i.continues rest.head? = true) : i.continues (rest ++ back).head? = true := by
  cases rest with
  | cons line rest => exact h
  | nil => cases i <;> simp_all [continues]

/-- Blocks that fall through do so one behind the other. -/
theorem fallsThrough_append {front back : List Line} (h : fallsThrough front = true)
    (k : fallsThrough back = true) : fallsThrough (front ++ back) = true := by
  induction front with
  | nil => exact k
  | cons line rest ih =>
    cases line with
    | label name => exact ih h
    | instruction i =>
      obtain ⟨continues, falls⟩ := Bool.and_eq_true_iff.1 h
      exact Bool.and_eq_true_iff.2 ⟨Instruction.continues_append back continues, ih falls⟩

namespace Execution

/-- A label that occurs once is found where it stands. -/
theorem placeOf_of_unique {front back : List Line} {name : String}
    (unique : (labels (front ++ .label name :: back)).Nodup) :
    placeOf (front ++ .label name :: back) name = some front.length := by
  refine List.idxOf?_eq_some_iff.2 ⟨by simp, by simp, fun j before same => ?_⟩
  have member : Line.label name ∈ front := by
    rw [List.getElem_append_left before] at same
    exact same ▸ List.getElem_mem before
  rw [labels_append, labels_label, List.nodup_append] at unique
  exact unique.2.2 name (List.mem_filterMap.2 ⟨_, member, rfl⟩) name List.mem_cons_self rfl

/-- A label costs no event and moves to the next line. -/
theorem step_label {lines : List Line} {m : Machine} {position : Nat} {name : String}
    (at' : lines[position]? = some (.label name)) :
    step lines ⟨m, position⟩ = some (⟨m, position + 1⟩, []) := by
  simp [step, at']

/-- An instruction that continues with the next line leaves one event and goes there. -/
theorem step_of_continues {front back : List Line} {i : Instruction} (m : Machine)
    (unique : (labels (front ++ .instruction i :: back)).Nodup) (h : i.continues back.head? = true) :
    step (front ++ .instruction i :: back) ⟨m, front.length⟩ =
      some (⟨(m.perform i).1, front.length + 1⟩, [⟨front.length, (m.perform i).2⟩]) := by
  have here : (front ++ Line.instruction i :: back)[front.length]? = some (.instruction i) := by simp
  have target {name : String} (next : back.head? = some (.label name)) :
      placeOf (front ++ .instruction i :: back) name = some (front.length + 1) := by
    obtain ⟨rest, rfl⟩ := List.head?_eq_some_iff.1 next
    rw [List.append_cons] at unique ⊢
    rw [placeOf_of_unique unique, List.length_append, List.length_singleton]
  cases i with
  | branch name =>
    simp [step, Machine.perform, Instruction.target?, target (beq_iff_eq.1 h)]
  | branchIf condition name =>
    -- Taken or not, the next place is the one behind the branch.
    cases taken : m.flags.satisfy condition <;>
      simp [step, Machine.perform, Instruction.target?, target (beq_iff_eq.1 h), taken]
  | supervisorCall number => cases h
  | _ => simp [step, Machine.perform]

namespace Reaches

/-- Executions follow one another, and so do their events. -/
theorem trans {lines : List Line} {e f g : Execution} {first later : List Event}
    (h : Reaches lines e first f) (k : Reaches lines f later g) :
    Reaches lines e (first ++ later) g := by
  induction h with
  | here e => exact k
  | onward next rest ih => exact List.append_assoc _ _ _ ▸ .onward next (ih k)

theorem single {lines : List Line} {e f : Execution} {events : List Event}
    (h : step lines e = some (f, events)) : Reaches lines e events f :=
  List.append_nil events ▸ .onward h (.here f)

/-- A label is passed without an event. -/
theorem label {lines : List Line} {m : Machine} {position : Nat} {name : String} {events : List Event}
    {f : Execution} (at' : lines[position]? = some (.label name))
    (later : Reaches lines ⟨m, position + 1⟩ events f) : Reaches lines ⟨m, position⟩ events f :=
  List.nil_append events ▸ .onward (step_label at') later

/-- A block that falls through is executed from its first line to the line behind it. -/
theorem block {lines front back : List Line} (unique : (labels lines).Nodup) (m : Machine)
    (block : List Line) (at' : lines = front ++ (block ++ back)) (falls : fallsThrough block = true) :
    Reaches lines ⟨m, front.length⟩ (m.eventsOf front.length block)
      ⟨m.runBlock block, front.length + block.length⟩ := by
  induction block generalizing front m with
  | nil => exact .here _
  | cons line rest ih =>
    have next : lines = (front ++ [line]) ++ (rest ++ back) := by simp [at']
    have size : (front ++ [line]).length = front.length + 1 := by simp
    rw [List.length_cons, Nat.add_comm rest.length, ← Nat.add_assoc]
    cases line with
    | label name =>
      have later := ih m next falls
      rw [size] at later
      have here : lines[front.length]? = some (.label name) := by simp [at']
      exact .label here later
    | instruction i =>
      obtain ⟨continues, falls⟩ := Bool.and_eq_true_iff.1 falls
      have later := ih (m.perform i).1 next falls
      rw [size] at later
      subst at'
      exact .onward (step_of_continues m unique (Instruction.continues_append back continues)) later

/-- A program has one execution: every start of it is the start of one that ends in a halt. -/
theorem only {lines : List Line} {e f g : Execution} {first all : List Event}
    (h : Reaches lines e first f) (k : Reaches lines e all g) (halted : step lines g = none) :
    ∃ later, Reaches lines f later g ∧ all = first ++ later := by
  induction h generalizing all with
  | here e => exact ⟨all, k, rfl⟩
  | onward next rest ih =>
    cases k with
    | here e => rw [halted] at next; cases next
    | onward other k =>
      rw [other] at next
      cases next
      obtain ⟨later, reaches, rfl⟩ := ih k
      exact ⟨later, reaches, (List.append_assoc _ _ _).symm⟩

end Reaches

end Execution

end CycleCost.Assembly
