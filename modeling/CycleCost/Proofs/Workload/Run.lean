/-
Module: CycleCost.Proofs.Workload.Run
Purpose: The whole run of a calibration program. The counter and the bound survive every body, so the loop is
  left after as many turns as the program was bound to, and what is executed is exactly what is declared.
  `AtLoop` is the invariant that holds whenever execution stands at the loop label.
Main exports: Program.InBuffer, Program.AtLoop, Program.reaches_final, Program.DoesDeclaredWork,
  Program.does_declared_work
-/
import CycleCost.Proofs.Assembly.Loop
import CycleCost.Proofs.Workload.Admission
import CycleCost.Proofs.Workload.Template

namespace CycleCost

open Assembly Execution

namespace Program

/-- The lines of one turn of the loop. -/
def turn (p : Program) : List Line := p.template.body ++ loopControl

/-- All lines after the entry label. -/
def allLines (p : Program) : List Line :=
  p.opening ++ .label loopLabel :: (p.turn ++ (p.closing ++ [.instruction p.exitCall]))

/-- A turn is a block with a branch back to the loop label. -/
theorem turn_eq_loopTurn (p : Program) :
    p.turn = loopTurn (p.template.body ++ loopControl.dropLast) .less loopLabel := by
  rw [turn, loopTurn, List.append_assoc]
  rfl

/-- No two lines of a program have the same label. -/
theorem nodup_labels (p : Program) : (labels p.allLines).Nodup := by
  have exit : labels (p.abi.exitSequence 0).dropLast = [] := by cases p.abi <;> rfl
  have all : labels p.allLines = loopLabel :: labels p.template.body := by
    simp [allLines, opening, loading, turn, closing, loopControl, p.template.labels_setup,
      p.template.labels_teardown, exit]
  exact all ▸ p.template.nodup_labels_body

/-! ### Before the loop -/

theorem fallsThrough_opening (p : Program) : fallsThrough p.opening = true :=
  fallsThrough_append (fallsThrough_boundLoad p.count) p.template.fallsThrough_setup

theorem fallsThrough_closing (p : Program) : fallsThrough p.closing = true := by
  rw [closing]
  refine fallsThrough_append ?_ ?_
  · cases p.template <;> decide
  · cases p.abi <;> decide

/-- Where the buffer of a program begins: below the stack pointer that it starts with. -/
def bufferStart (p : Program) (start : Assembly.Machine) : UInt64 :=
  start.read .sp - p.template.bufferSize.toUInt64

/-- Eight bytes from an address on lie in the buffer that the setup reserves. -/
def InBuffer (p : Program) (start : Assembly.Machine) (address : UInt64) : Prop :=
  ∃ bytes, p.template.bufferBytes = some bytes ∧
    (address - (start.read .sp - bytes.toUInt64)).toNat + 8 ≤ bytes

/-- The invariant of the loop: whenever execution stands at the loop label after `k` turns, the counter says
    `k`, the bound is loaded, and stack pointer and base register are where the setup put them. -/
structure AtLoop (p : Program) (start : Assembly.Machine) (k : Nat) (m : Assembly.Machine) : Prop where
  counter : (m.read counterRegister).toNat = k
  bound : m.read boundRegister = p.count
  stack : m.read .sp = p.bufferStart start
  base : p.template.bufferBytes.isSome → m.read p.template.bufferBase = p.bufferStart start

/-- The loading clears the counter and sets the bound. -/
theorem read_loading {p : Program} (h : Admitted p.count) (m : Assembly.Machine) :
    (m.runBlock p.loading).read counterRegister = 0 ∧
      (m.runBlock p.loading).read boundRegister = p.count ∧
      (m.runBlock p.loading).read .sp = m.read .sp := by
  let cleared := (m.perform (.moveImmediate counterRegister 0)).1
  have keeps {r : Register} (other : r ≠ boundRegister) :
      (m.runBlock p.loading).read r = cleared.read r :=
    cleared.read_runBlock fun line member =>
      (effect_of_mem_boundLoad member).1 ▸ fun same => other (Option.some.inj same).symm
  exact ⟨(keeps (by decide)).trans (Machine.read_write_x m 10 _), read_runBlock_boundLoad cleared h.2,
    (keeps (by decide)).trans rfl⟩

/-- Setting the counter and the bound does not touch memory. -/
theorem loading_within (p : Program) : ∀ line ∈ p.loading, line.access? = none := by
  intro line member
  rcases List.mem_cons.1 member with rfl | bound
  · rfl
  · exact (effect_of_mem_boundLoad bound).2

/-- The invariant holds when execution first comes to the loop label. -/
theorem atLoop_opening {p : Program} (h : Admitted p.count) (start : Assembly.Machine) :
    p.AtLoop start 0 (start.runBlock p.opening) := by
  obtain ⟨counter, bound, stack⟩ := read_loading h start
  obtain ⟨setupCounter, setupBound, setupStack, setupBase⟩ :=
    p.template.read_setup (start.runBlock p.loading)
  rw [opening, Machine.runBlock_append]
  refine ⟨?_, ?_, ?_, fun buffered => ?_⟩
  · rw [setupCounter, counter]
    rfl
  · rw [setupBound, bound]
  · rw [setupStack, stack, bufferStart]
  · rw [setupBase buffered, stack, bufferStart]

/-! ### The loop -/

/-- The loop control counts up and compares the counter with the bound. -/
theorem runBlock_loopControl (m : Assembly.Machine) :
    m.runBlock loopControl =
      { m.write counterRegister (m.read counterRegister + 1) with
        flags := .ofDifference (m.read counterRegister + 1) (m.read boundRegister) } := by
  simp [loopControl, Machine.runBlock, Machine.perform, counterRegister, boundRegister, Machine.write,
    Machine.read]

namespace AtLoop

variable {p : Program} {start m : Assembly.Machine} {k : Nat}

/-- The number of the next turn, as the counter will say it. -/
theorem toNat_counter_succ (at' : p.AtLoop start k m) (h : Admitted p.count)
    (early : k < p.count.toNat) : (m.read counterRegister + 1).toNat = k + 1 := by
  have small := h.toNat_lt
  have one : (1 : UInt64).toNat = 1 := rfl
  rw [UInt64.toNat_add, at'.counter, one]
  exact Nat.mod_eq_of_lt (by omega)

/-- A turn keeps the invariant. -/
theorem turn (at' : p.AtLoop start k m) (h : Admitted p.count) (early : k < p.count.toNat) :
    p.AtLoop start (k + 1) (m.runBlock p.turn) := by
  obtain ⟨counter, bound, stack, base⟩ := p.template.read_body m
  have baseOther : counterRegister ≠ p.template.bufferBase := by
    cases p.template <;> decide
  rw [Program.turn, Machine.runBlock_append, runBlock_loopControl]
  refine ⟨?_, ?_, ?_, fun buffered => ?_⟩ <;> rw [Machine.read_withFlags]
  · rw [counter, counterRegister, Machine.read_write_x]
    exact at'.toNat_counter_succ h early
  · rw [Machine.read_write_of_ne _ _ (by decide), bound, at'.bound]
  · rw [Machine.read_write_of_ne _ _ (by decide), stack, at'.stack]
  · rw [Machine.read_write_of_ne _ _ baseOther, base, at'.base buffered]

/-- The branch at the end of a turn goes back exactly when the counter is below the bound. -/
theorem branches_iff (at' : p.AtLoop start k m) (h : Admitted p.count) (early : k < p.count.toNat) :
    (m.runBlock p.turn).flags.satisfy .less = true ↔ k + 1 < p.count.toNat := by
  obtain ⟨counter, bound, -, -⟩ := p.template.read_body m
  have small := h.toNat_lt
  have next := at'.toNat_counter_succ h early
  rw [Program.turn, Machine.runBlock_append, runBlock_loopControl, counter, bound, at'.bound,
    Flags.satisfy_less_iff_of_small, next]
  · rw [next]
    exact Nat.lt_of_le_of_lt early (by change _ < 2 ^ 63; omega)
  · change _ < 2 ^ 63
    omega

end AtLoop

/-- The lines that address the buffer address eight bytes of it. -/
theorem inBuffer_of_mem_eventsOf {p : Program} {start m : Assembly.Machine} {place : Nat} {block : List Line}
    (base : p.template.bufferBytes.isSome → m.read p.template.bufferBase = p.bufferStart start)
    (within : ∀ line ∈ block, line.written ≠ some p.template.bufferBase ∧
      ∀ access ∈ line.access?,
        access.1 = p.template.bufferBase ∧ access.2 + 8 ≤ p.template.bufferSize)
    {event : Event} (member : event ∈ m.eventsOf place block) {address : UInt64}
    (touches : event.effect = .accessed address) : p.InBuffer start address := by
  obtain ⟨line, inside, access, has, value⟩ := Machine.exists_access_of_mem_eventsOf member touches
  obtain ⟨same, fits⟩ := (within line inside).2 access has
  have here := value fun other member => same ▸ (within other member).1
  cases bytes : p.template.bufferBytes with
  | none =>
    rw [Template.bufferSize, bytes] at fits
    exact absurd fits (by simp)
  | some size =>
    have small : access.2.toUInt64.toNat ≤ access.2 := Nat.mod_le _ _
    rw [same, base (by rw [bytes]; rfl), bufferStart] at here
    rw [Template.bufferSize, bytes, Option.getD_some] at fits here
    refine ⟨size, bytes, ?_⟩
    rw [here, UInt64.add_comm, UInt64.add_sub_cancel]
    omega

/-! ### The whole run -/

/-- The machine when execution first comes to the loop. -/
def entered (p : Program) (start : Assembly.Machine) : Assembly.Machine := start.runBlock p.opening

/-- The machine when execution leaves the loop. -/
def left (p : Program) (start : Assembly.Machine) : Assembly.Machine :=
  (p.entered start).runTimes p.turn p.count.toNat

/-- The place behind the loop. -/
def loopEnd (p : Program) : Nat := p.opening.length + 1 + p.turn.length

/-- The events of a run up to the exit call. -/
def events (p : Program) (start : Assembly.Machine) : List Event :=
  start.eventsOf 0 p.opening
    ++ ((p.entered start).eventsTimes (p.opening.length + 1) p.turn p.count.toNat
      ++ (p.left start).eventsOf p.loopEnd p.closing)

/-- The end of a run: the exit call comes next. -/
def final (p : Program) (start : Assembly.Machine) : Execution :=
  ⟨(p.left start).runBlock p.closing, p.loopEnd + p.closing.length⟩

variable {p : Program}

/-- After `k` turns the invariant holds. -/
theorem atLoop_runTimes (h : Admitted p.count) (start : Assembly.Machine) {k : Nat}
    (turns : k ≤ p.count.toNat) :
    p.AtLoop start k ((p.entered start).runTimes p.turn k) := by
  induction k with
  | zero => exact atLoop_opening h start
  | succ k ih => exact (ih (Nat.le_of_succ_le turns)).turn h turns

/-- A run comes to the loop label. -/
theorem reaches_loop (start : Assembly.Machine) :
    Reaches p.allLines ⟨start, 0⟩ (start.eventsOf 0 p.opening) ⟨p.entered start, p.opening.length⟩ := by
  have split : p.allLines = [] ++ (p.opening ++ _) := rfl
  have block := Reaches.block p.nodup_labels start p.opening split p.fallsThrough_opening
  rw [List.length_nil, Nat.zero_add] at block
  exact block

/-- Behind the loop a run comes to the exit call. -/
theorem reaches_closing (start : Assembly.Machine) :
    Reaches p.allLines ⟨p.left start, p.loopEnd⟩ ((p.left start).eventsOf p.loopEnd p.closing)
      (p.final start) := by
  have split : p.allLines = (p.opening ++ .label loopLabel :: p.turn)
      ++ (p.closing ++ [.instruction p.exitCall]) := by simp [allLines]
  have size : (p.opening ++ .label loopLabel :: p.turn).length = p.loopEnd := by
    rw [List.length_append, List.length_cons, loopEnd]
    omega
  have block := Reaches.block p.nodup_labels (p.left start) p.closing split p.fallsThrough_closing
  rw [size] at block
  exact block

/-- A run goes through the opening, as many turns as the count says, and the closing. -/
theorem reaches_final (h : Admitted p.count) (start : Assembly.Machine) :
    Reaches p.allLines ⟨start, 0⟩ (p.events start) (p.final start) := by
  have unique := p.nodup_labels
  obtain ⟨n, count⟩ := Nat.exists_eq_succ_of_ne_zero h.toNat_pos.ne'
  have loop : Reaches p.allLines ⟨p.entered start, p.opening.length⟩
      ((p.entered start).eventsTimes (p.opening.length + 1) p.turn p.count.toNat)
      ⟨p.left start, p.loopEnd⟩ := by
    have split : p.allLines = p.opening ++ .label loopLabel ::
        (p.turn ++ (p.closing ++ [.instruction p.exitCall])) := rfl
    rw [left, loopEnd, count]
    rw [turn_eq_loopTurn] at split ⊢
    refine Reaches.loop (p.entered start) unique split p.template.fallsThrough_body ?_ ?_ <;>
      rw [← turn_eq_loopTurn]
    · intro k early
      have at' := atLoop_runTimes h start (Nat.le_of_lt (count ▸ Nat.lt_succ_of_lt early))
      exact (at'.branches_iff h (by omega)).2 (by omega)
    · have at' := atLoop_runTimes h start (count ▸ Nat.le_succ n)
      exact Bool.eq_false_iff.2 fun back =>
        absurd ((at'.branches_iff h (by omega)).1 back) (by omega)
  exact (reaches_loop start).trans (loop.trans (reaches_closing start))

/-- The lines behind the loop touch no memory. -/
theorem closing_within (p : Program) : ∀ line ∈ p.closing, line.access? = none := by
  have exit : ∀ line ∈ (p.abi.exitSequence 0).dropLast, line.access? = none := by
    cases p.abi <;> decide
  intro line member
  rcases List.mem_append.1 member with teardown | sequence
  · exact p.template.teardown_within line teardown
  · exact exit line sequence

/-- The closing gives the buffer back and puts the exit code into place. -/
theorem read_closing (p : Program) (m : Assembly.Machine) :
    (m.runBlock p.closing).read .sp = m.read .sp + p.template.bufferSize.toUInt64 ∧
      (m.runBlock p.closing).read (.x 0) = 0 := by
  rw [closing, Machine.runBlock_append]
  refine ⟨?_, ?_⟩
  · rw [← p.template.read_sp_teardown m]
    cases p.abi <;> rfl
  · cases p.abi <;> rfl

/-- Every load and store of a run lies in the buffer. -/
theorem inBuffer_of_mem_events (h : Admitted p.count) {start : Assembly.Machine} {event : Event}
    (member : event ∈ p.events start) {address : UInt64} (touches : event.effect = .accessed address) :
    p.InBuffer start address := by
  -- Blocks without a load or a store have no such event.
  have silent {m : Assembly.Machine} {place : Nat} {block : List Line}
      (none : ∀ line ∈ block, line.access? = none) (inside : event ∈ m.eventsOf place block) : False := by
    obtain ⟨line, has, access, some, -⟩ := Machine.exists_access_of_mem_eventsOf inside touches
    rw [none line has] at some
    cases some
  rcases List.mem_append.1 member with opening | later
  · rw [Program.opening, ← List.take_append_drop p.template.basingLines p.template.setup,
      Machine.eventsOf_append, Machine.eventsOf_append, List.mem_append, List.mem_append] at opening
    rcases opening with loading | basing | filling
    · exact (silent p.loading_within loading).elim
    · exact (silent p.template.basing_within basing).elim
    · refine inBuffer_of_mem_eventsOf (fun buffered => ?_) p.template.filling_within filling touches
      rw [p.template.read_base_basing _ buffered, (read_loading h start).2.2, bufferStart]
  · rcases List.mem_append.1 later with turns | closing
    · obtain ⟨k, early, inside⟩ := Machine.mem_eventsTimes.1 turns
      exact inBuffer_of_mem_eventsOf (atLoop_runTimes h start early.le).base p.template.turn_within
        inside touches
    · exact (silent p.closing_within closing).elim

/-- The places that a run goes through. -/
theorem map_position_events (p : Program) (start : Assembly.Machine) :
    (p.events start).map (·.position) =
      placesOf 0 p.opening
        ++ ((List.replicate p.count.toNat (placesOf (p.opening.length + 1) p.turn)).flatten
          ++ placesOf p.loopEnd p.closing) := by
  simp only [events, List.map_append, Machine.map_position_eventsOf,
    Machine.map_position_eventsTimes]

/-- The instructions executed inside the body are its own, once for every turn. -/
theorem countP_body_events (p : Program) (start : Assembly.Machine) :
    (p.events start).countP (fun event => decide (p.opening.length < event.position ∧
        event.position ≤ p.opening.length + p.template.body.length)) =
      p.template.instructionsPerIteration.toNat * p.count.toNat := by
  let inBody (place : Nat) : Bool :=
    decide (p.opening.length < place ∧ place ≤ p.opening.length + p.template.body.length)
  have outside {place : Nat} {block : List Line}
      (away : place + block.length ≤ p.opening.length + 1 ∨
        p.opening.length + p.template.body.length < place) :
      (placesOf place block).countP inBody = 0 := by
    rw [List.countP_eq_zero]
    intro q member inside
    have bounds := placesOf_bounds member
    have within := of_decide_eq_true inside
    omega
  have inside : (placesOf (p.opening.length + 1) p.template.body).countP inBody =
      p.template.instructionsPerIteration.toNat := by
    rw [← p.template.countP_body, ← length_placesOf (p.opening.length + 1), List.countP_eq_length]
    intro q member
    have bounds := placesOf_bounds member
    exact decide_eq_true ⟨by omega, by omega⟩
  have turn : (placesOf (p.opening.length + 1) p.turn).countP inBody =
      p.template.instructionsPerIteration.toNat := by
    rw [Program.turn, placesOf_append, List.countP_append, inside, outside (by omega)]
    rfl
  calc (p.events start).countP (inBody ∘ (·.position))
      = ((p.events start).map (·.position)).countP inBody := List.countP_map.symm
    _ = p.template.instructionsPerIteration.toNat * p.count.toNat := by
      rw [map_position_events, List.countP_append, List.countP_append, outside (by omega),
        outside (by rw [loopEnd, Program.turn, List.length_append]; omega), List.countP_flatten,
        List.map_replicate, turn, List.sum_replicate_nat, Nat.mul_comm]
      omega

/-- Every executed instruction but the exit call. -/
theorem length_events (p : Program) (start : Assembly.Machine) :
    (p.events start).length =
      p.opening.countP Line.isInstruction
        + p.count.toNat * (p.template.instructionsPerIteration.toNat + 3)
        + p.template.teardown.countP Line.isInstruction + 2 := by
  have exit : (p.abi.exitSequence 0).dropLast.countP Line.isInstruction = 2 := by
    cases p.abi <;> rfl
  have control : loopControl.countP Line.isInstruction = 3 := rfl
  rw [← List.length_map (·.position), map_position_events, List.length_append, List.length_append,
    List.length_flatten, List.map_replicate, List.sum_replicate_nat, length_placesOf, length_placesOf,
    length_placesOf, turn, closing, List.countP_append, List.countP_append, p.template.countP_body,
    control, exit]
  omega

/-- What a run of `lines` does that starts in `start`, leaves `events` and ends in `final`: it is the program's
    only execution, and it does exactly the declared work on exactly the reserved memory. -/
structure DoesDeclaredWork (p : Program) (start : Assembly.Machine) (lines : List Line) (work : UInt64)
    (loop : Nat) (events : List Event) (final : Execution) : Prop where
  /-- The loop label stands at `loop`, and the body follows it. -/
  loopPlace : placeOf lines loopLabel = some loop
  body : p.template.body <+: lines.drop (loop + 1)
  /-- Execution comes to the exit call, the last line, and goes no further. -/
  reaches : Reaches lines ⟨start, 0⟩ events final
  call : lines[final.position]? = some (.instruction p.exitCall)
  last : final.position + 1 = lines.length
  halted : step lines final = none
  /-- Every other execution from the entry is a beginning of this one. -/
  only : ∀ first f, Reaches lines ⟨start, 0⟩ first f →
    ∃ later, Reaches lines f later final ∧ events = first ++ later
  /-- The places of the executed instructions: the lines before the loop, as many turns of the loop as the
      count says, each with every line once and in order, and the lines behind it. -/
  trace : events.map (·.position) =
    placesOf 0 (lines.take loop)
      ++ ((List.replicate p.count.toNat (placesOf (loop + 1) (p.template.body ++ loopControl))).flatten
        ++ placesOf (loop + 1 + (p.template.body ++ loopControl).length) p.closing)
  /-- The instructions executed inside the body are the declared work, which is no wrapped product. -/
  bodyWork : events.countP (fun event => decide (loop < event.position ∧
    event.position ≤ loop + p.template.body.length)) = work.toNat
  product : work.toNat = p.template.instructionsPerIteration.toNat * p.count.toNat
  /-- All executed instructions; the exit call is the one that leaves no event. -/
  retired : events.length + 1 =
    (lines.take loop).countP Line.isInstruction
      + p.count.toNat * (p.template.instructionsPerIteration.toNat + 3)
      + p.template.teardown.countP Line.isInstruction + 3
  /-- The exit code is zero, and the stack pointer is back. -/
  status : final.machine.read (.x 0) = 0
  stack : final.machine.read .sp = start.read .sp
  /-- In the loop the stack pointer stands below the buffer that the setup reserved, and every load and
      store lies in that buffer. -/
  reserved : ∃ before m, Reaches lines ⟨start, 0⟩ before ⟨m, loop⟩ ∧ before <+: events ∧
    ∀ bytes, p.template.bufferBytes = some bytes → m.read .sp = start.read .sp - bytes.toUInt64
  accesses : ∀ event ∈ events, ∀ address, event.effect = .accessed address → p.InBuffer start address

/-- The run of an admitted program does the declared work. -/
theorem doesDeclaredWork_events (h : Admitted p.count) (start : Assembly.Machine) :
    p.DoesDeclaredWork start p.allLines (p.template.instructionsPerIteration * p.count)
      p.opening.length (p.events start) (p.final start) := by
  have before : p.allLines.take p.opening.length = p.opening := List.take_left
  have split : p.allLines = (p.opening ++ .label loopLabel :: (p.turn ++ p.closing))
      ++ [.instruction p.exitCall] := by simp [allLines]
  have place : (p.final start).position =
      (p.opening ++ .label loopLabel :: (p.turn ++ p.closing)).length := by
    simp only [final, loopEnd, List.length_append, List.length_cons]
    omega
  have call : p.allLines[(p.final start).position]? = some (.instruction p.exitCall) := by
    rw [split, place]
    exact List.getElem?_concat_length
  have halted : step p.allLines (p.final start) = none := by
    obtain ⟨number, exit⟩ : ∃ number, p.exitCall = .supervisorCall number := by
      rw [exitCall]
      cases p.abi <;> exact ⟨_, rfl⟩
    simp [step, call, exit, Machine.perform]
  obtain ⟨stack, status⟩ := p.read_closing (p.left start)
  have reaches := reaches_final h start
  refine ⟨placeOf_of_unique p.nodup_labels, ?_, reaches, call, ?_, halted,
    fun first f start => start.only reaches halted, ?_, ?_, p.template.toNat_work h, ?_, status, ?_,
    ?_, fun event member address => inBuffer_of_mem_events h member⟩
  · have behind : p.allLines.drop (p.opening.length + 1) =
        p.template.body ++ (loopControl ++ (p.closing ++ [.instruction p.exitCall])) := by
      simp [allLines, turn]
    exact behind ▸ List.prefix_append _ _
  · rw [split, List.length_append, place]
    rfl
  · rw [before]
    exact p.map_position_events start
  · rw [p.template.toNat_work h]
    exact p.countP_body_events start
  · rw [before, p.length_events]
  · have low : (p.left start).read .sp = p.bufferStart start := (atLoop_runTimes h start le_rfl).stack
    rw [final, stack, low, bufferStart, UInt64.sub_add_cancel]
  · refine ⟨_, _, reaches_loop start, List.prefix_append _ _, fun bytes buffer => ?_⟩
    have low : (p.entered start).read .sp = p.bufferStart start := (atLoop_opening h start).stack
    rw [low, bufferStart, Template.bufferSize, buffer, Option.getD_some]

/-- Every template at every count that makes a program, on either interface and from every state of the
    machine: the source spells lines whose execution ends at the exit call after the declared work. -/
theorem does_declared_work (t : Template) (r : UInt64) (abi : Abi) (start : Assembly.Machine)
    (positive : 1 ≤ r) (bounded : r ≤ countLimit) :
    ∃ lines loop events final,
      Program.bind t r abi = .ok ⟨t, r, abi⟩ ∧
      (⟨t, r, abi⟩ : Program).lines = .ok lines ∧
      (⟨t, r, abi⟩ : Program).source = .ok ((⟨t, r, abi⟩ : Program).header
        ++ (Line.label abi.entrySymbol).text ++ String.join (lines.map Line.text)) ∧
      (⟨t, r, abi⟩ : Program).totalWork = .ok (t.instructionsPerIteration * r) ∧
      (⟨t, r, abi⟩ : Program).DoesDeclaredWork start lines (t.instructionsPerIteration * r) loop events
        final := by
  have nonzero : r ≠ 0 := UInt64.pos_iff_ne_zero.1 (UInt64.lt_of_lt_of_le (by decide) positive)
  have h : Admitted r := ⟨nonzero, bounded⟩
  let p : Program := ⟨t, r, abi⟩
  have lines : p.lines = .ok p.allLines := by
    rw [lines_of_admitted h, allLines, turn]
  exact ⟨p.allLines, p.opening.length, p.events start, p.final start, bind_of_admitted h, lines,
    source_of_lines lines, totalWork_of_admitted h, doesDeclaredWork_events h start⟩

/-- A machine with nothing in it but a stack. -/
def blank : Assembly.Machine where
  registers _ := 0
  stackPointer := 4096
  flags := ⟨false, false, false, false⟩
  memory _ := 0

/-- Seventy thousand turns, a count that takes two immediates, of a template that works on memory. -/
theorem does_declared_work_seventyThousand :
    1 ≤ (70000 : UInt64) ∧ (70000 : UInt64) ≤ countLimit ∧
      ∃ lines loop events final,
        (⟨.memoryStrided, 70000, .linux⟩ : Program).lines = .ok lines ∧
        (⟨.memoryStrided, 70000, .linux⟩ : Program).DoesDeclaredWork blank lines 1400000 loop events
          final := by
  obtain ⟨lines, loop, events, final, -, spelled, -, -, work⟩ :=
    does_declared_work .memoryStrided 70000 .linux blank (by decide) (by decide)
  exact ⟨by decide, by decide, lines, loop, events, final, spelled, work⟩

end Program

end CycleCost
