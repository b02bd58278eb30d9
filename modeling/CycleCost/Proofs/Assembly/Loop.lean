/-
Module: CycleCost.Proofs.Assembly.Loop
Purpose: Counted loops. A loop is a label, a block that falls through, and a conditional branch back to the
  label. When the branch is taken after every turn but the last of `n`, the loop is left after exactly `n`
  turns, and its events are those of the turns.
Main exports: Machine.runTimes, Machine.eventsTimes, loopTurn, Reaches.loop
-/
import CycleCost.Proofs.Assembly.Block

namespace CycleCost.Assembly

namespace Machine

/-- The machine after a block has been executed `n` times. -/
def runTimes (m : Machine) (block : List Line) : Nat → Machine
  | 0 => m
  | n + 1 => (m.runTimes block n).runBlock block

/-- The events of `n` executions of a block at one place. -/
def eventsTimes (m : Machine) (place : Nat) (block : List Line) : Nat → List Event
  | 0 => []
  | n + 1 => m.eventsTimes place block n ++ (m.runTimes block n).eventsOf place block

/-- The events of a repeated block, execution by execution. -/
theorem eventsTimes_eq_flatMap (m : Machine) (place : Nat) (block : List Line) (n : Nat) :
    m.eventsTimes place block n =
      (List.range n).flatMap fun k => (m.runTimes block k).eventsOf place block := by
  induction n with
  | zero => rfl
  | succ n ih => rw [eventsTimes, ih, List.range_succ, List.flatMap_append, List.flatMap_singleton]

/-- An event of a repeated block is an event of one of its executions. -/
theorem mem_eventsTimes {m : Machine} {place : Nat} {block : List Line} {n : Nat} {event : Event} :
    event ∈ m.eventsTimes place block n ↔
      ∃ k < n, event ∈ (m.runTimes block k).eventsOf place block := by
  simp only [eventsTimes_eq_flatMap, List.mem_flatMap, List.mem_range]

/-- Every execution goes through the same places. -/
theorem map_position_eventsTimes (m : Machine) (place : Nat) (block : List Line) (n : Nat) :
    (m.eventsTimes place block n).map (·.position) =
      (List.replicate n (placesOf place block)).flatten := by
  induction n with
  | zero => rfl
  | succ n ih =>
    rw [eventsTimes, List.map_append, ih, map_position_eventsOf, List.replicate_succ',
      List.flatten_append]
    simp

end Machine

/-- A block followed by a conditional branch to the label before it. -/
def loopTurn (block : List Line) (condition : Condition) (name : String) : List Line :=
  block ++ [.instruction (.branchIf condition name)]

/-- The branch of a loop does nothing to the machine. -/
theorem Machine.runBlock_loopTurn (m : Machine) (block : List Line) (condition : Condition)
    (name : String) : m.runBlock (loopTurn block condition name) = m.runBlock block := by
  rw [loopTurn, runBlock_append]
  rfl

/-- The events of a turn are those of the block and the one of the branch. -/
theorem Machine.eventsOf_loopTurn (m : Machine) (place : Nat) (block : List Line)
    (condition : Condition) (name : String) :
    m.eventsOf place (loopTurn block condition name) =
      m.eventsOf place block
        ++ [⟨place + block.length, .branched ((m.runBlock block).flags.satisfy condition)⟩] := by
  rw [loopTurn, eventsOf_append]
  rfl

namespace Execution

variable {lines front block back : List Line} {name : String} {condition : Condition}

/-- The branch at the end of a loop goes back to the label when its condition holds, else on. -/
theorem step_loopBranch (m : Machine) (unique : (labels lines).Nodup)
    (at' : lines = front ++ .label name :: (loopTurn block condition name ++ back)) :
    step lines ⟨m, front.length + 1 + block.length⟩ =
      some (⟨m, if m.flags.satisfy condition then front.length
          else front.length + 1 + (loopTurn block condition name).length⟩,
        [⟨front.length + 1 + block.length, .branched (m.flags.satisfy condition)⟩]) := by
  have here : lines[front.length + 1 + block.length]? =
      some (.instruction (.branchIf condition name)) := by
    have split : lines = (front ++ .label name :: block)
        ++ .instruction (.branchIf condition name) :: back := by simp [at', loopTurn]
    have size : (front ++ .label name :: block).length = front.length + 1 + block.length := by
      rw [List.length_append, List.length_cons]
      omega
    rw [split, ← size]
    simp
  have target : placeOf lines name = some front.length := by
    rw [at'] at unique ⊢
    exact placeOf_of_unique unique
  cases taken : m.flags.satisfy condition <;>
    simp only [step, here, Machine.perform, Instruction.target?, Option.bind_some, target, taken,
      Option.map_some, loopTurn, List.length_append, List.length_singleton] <;> rfl

namespace Reaches

/-- The end of a turn: the last part of the block, and the branch. -/
theorem endOfTurn (before : List Line) (m : Machine) (unique : (labels lines).Nodup)
    (at' : lines = front ++ .label name :: (before ++ loopTurn block condition name ++ back))
    (falls : fallsThrough block = true) :
    Reaches lines ⟨m, front.length + 1 + before.length⟩
      (m.eventsOf (front.length + 1 + before.length) (loopTurn block condition name))
      ⟨m.runBlock (loopTurn block condition name),
        if (m.runBlock (loopTurn block condition name)).flags.satisfy condition then front.length
        else front.length + 1 + (before ++ loopTurn block condition name).length⟩ := by
  have size : (front ++ .label name :: before).length = front.length + 1 + before.length := by
    rw [List.length_append, List.length_cons]
    omega
  have split : lines = (front ++ .label name :: before)
      ++ (block ++ ([.instruction (.branchIf condition name)] ++ back)) := by simp [at', loopTurn]
  have whole : lines = front ++ .label name :: (loopTurn (before ++ block) condition name ++ back) := by
    simp [at', loopTurn]
  have inside := Reaches.block unique m block split falls
  have branch := single (step_loopBranch (m.runBlock block) unique whole)
  rw [size] at inside
  rw [List.length_append, ← Nat.add_assoc] at branch
  rw [Machine.runBlock_loopTurn, Machine.eventsOf_loopTurn, loopTurn, ← List.append_assoc]
  exact inside.trans branch

/-- One turn of a loop. -/
theorem turn (m : Machine) (unique : (labels lines).Nodup)
    (at' : lines = front ++ .label name :: (loopTurn block condition name ++ back))
    (falls : fallsThrough block = true) :
    Reaches lines ⟨m, front.length⟩
      (m.eventsOf (front.length + 1) (loopTurn block condition name))
      ⟨m.runBlock (loopTurn block condition name),
        if (m.runBlock (loopTurn block condition name)).flags.satisfy condition then front.length
        else front.length + 1 + (loopTurn block condition name).length⟩ :=
  have atLabel : lines[front.length]? = some (.label name) := by simp [at']
  .label atLabel (endOfTurn [] m unique at' falls)

/-- The turns before the last one lead back to the label. -/
theorem turns (m : Machine) (unique : (labels lines).Nodup)
    (at' : lines = front ++ .label name :: (loopTurn block condition name ++ back))
    (falls : fallsThrough block = true) {n : Nat}
    (taken : ∀ k < n,
      (m.runTimes (loopTurn block condition name) (k + 1)).flags.satisfy condition = true) :
    Reaches lines ⟨m, front.length⟩
      (m.eventsTimes (front.length + 1) (loopTurn block condition name) n)
      ⟨m.runTimes (loopTurn block condition name) n, front.length⟩ := by
  induction n with
  | zero => exact .here _
  | succ n ih =>
    have earlier := ih fun k small => taken k (Nat.lt_succ_of_lt small)
    have last := turn (m.runTimes (loopTurn block condition name) n) unique at' falls
    have back : ((m.runTimes (loopTurn block condition name) n).runBlock
        (loopTurn block condition name)).flags.satisfy condition = true := taken n n.lt_succ_self
    rw [if_pos back] at last
    exact earlier.trans last

/-- A loop whose branch is taken after each turn but the last of `n + 1` is left after these turns. -/
theorem loop (m : Machine) (unique : (labels lines).Nodup)
    (at' : lines = front ++ .label name :: (loopTurn block condition name ++ back))
    (falls : fallsThrough block = true) {n : Nat}
    (taken : ∀ k < n,
      (m.runTimes (loopTurn block condition name) (k + 1)).flags.satisfy condition = true)
    (left : (m.runTimes (loopTurn block condition name) (n + 1)).flags.satisfy condition = false) :
    Reaches lines ⟨m, front.length⟩
      (m.eventsTimes (front.length + 1) (loopTurn block condition name) (n + 1))
      ⟨m.runTimes (loopTurn block condition name) (n + 1),
        front.length + 1 + (loopTurn block condition name).length⟩ := by
  have last := turn (m.runTimes (loopTurn block condition name) n) unique at' falls
  have out : ¬ ((m.runTimes (loopTurn block condition name) n).runBlock
      (loopTurn block condition name)).flags.satisfy condition = true := Bool.not_eq_true _ ▸ left
  rw [if_neg out] at last
  exact (turns m unique at' falls taken).trans last

end Reaches

end Execution

end CycleCost.Assembly
