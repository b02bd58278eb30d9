/-
Module: CycleCost.Proofs.Workload.Branches
Purpose: The branches of the template that alternates. Half of them compare the counter with zero and are taken in
  every iteration, the others compare zero with the counter and are taken in the first iteration only. The loop
  control makes its own flags, so nothing of this reaches the branch of the loop.
Main exports: decisions, Template.decisions_body, Program.Iteration, Program.Alternates, Program.branches_alternate
-/
import CycleCost.Proofs.Workload.Run

namespace CycleCost

open Assembly Execution

namespace Assembly

/-- What a branch decided. -/
def Event.decision? (event : Event) : Option Bool :=
  match event.effect with
  | .branched taken => some taken
  | _ => none

/-- The decisions of the branches among the events, in their order. -/
def decisions (events : List Event) : List Bool := events.filterMap Event.decision?

@[simp] theorem decisions_append (first later : List Event) :
    decisions (first ++ later) = decisions first ++ decisions later := List.filterMap_append

end Assembly

/-! ### The body -/

namespace Template

/-- The decisions of the ten branches in iteration `k`, counted from zero: the branches with an odd number are taken,
    and in the first iteration all are. -/
def alternation (k : Nat) : List Bool := (List.range 10).map fun i => decide (k = 0 ∨ (i + 1) % 2 = 1)

/-- Of the ten branches all are taken in the first iteration and five in every later one. -/
theorem count_alternation (k : Nat) : (alternation k).count true = if k = 0 then 10 else 5 := by
  cases k with
  | zero => rfl
  | succ k =>
    simp only [alternation, Nat.succ_ne_zero, false_or, if_false]
    rfl

/-- A comparison and the branch on it. -/
def pair (i : Nat) : List Line :=
  [.instruction (if i % 2 = 0 then .compareImmediate (.x 10) 0 else .compareRegister .zero (.x 10)),
    .instruction (.branchIf .greaterOrEqual s!"skip{i + 1}"), .label s!"skip{i + 1}"]

theorem body_branchHeavy : branchHeavy.body = (List.range 10).flatMap pair := rfl

variable {m : Assembly.Machine} {k : Nat}

/-- A pair writes no register. -/
theorem read_pair (m : Assembly.Machine) (i : Nat) (r : Register) : (m.runBlock (pair i)).read r = m.read r := by
  refine m.read_runBlock fun line member => ?_
  simp only [pair, List.mem_cons, List.not_mem_nil, or_false] at member
  rcases member with rfl | rfl | rfl
  · split <;> nofun
  · nofun
  · nofun

/-- The branch of a pair is taken if its number is odd or the counter is zero. -/
theorem decisions_pair (counter : (m.read Program.counterRegister).toNat = k) (small : k < Nat.pow 2 63)
    (place i : Nat) : decisions (m.eventsOf place (pair i)) = [decide (k = 0 ∨ (i + 1) % 2 = 1)] := by
  have zero : UInt64.toNat 0 < Nat.pow 2 63 := by decide
  have counterSmall : (m.read Program.counterRegister).toNat < Nat.pow 2 63 := counter ▸ small
  -- The order of the operands is what makes the two kinds of branches differ.
  rcases Nat.mod_two_eq_zero_or_one i with even | odd
  · have decided : decisions (m.eventsOf place (pair i)) =
        [(Flags.ofDifference (m.read Program.counterRegister) 0).satisfy .greaterOrEqual] := by
      rw [pair, if_pos even]
      rfl
    have taken := (Flags.satisfy_greaterOrEqual_iff_of_small counterSmall zero).2 (Nat.zero_le _)
    rw [decided, taken, decide_eq_true (.inr (by omega))]
  · have decided : decisions (m.eventsOf place (pair i)) =
        [(Flags.ofDifference 0 (m.read Program.counterRegister)).satisfy .greaterOrEqual] := by
      rw [pair, if_neg (by omega)]
      rfl
    have taken := Flags.satisfy_greaterOrEqual_iff_of_small zero counterSmall
    rw [decided, List.singleton_inj, Bool.eq_iff_iff, taken, counter, decide_eq_true_iff]
    exact ⟨fun small => .inl (Nat.le_zero.1 small), fun either => either.elim (· ▸ Nat.le_refl 0) (by omega)⟩

/-- Pairs decide one after the other, since none of them changes the counter. -/
theorem decisions_pairs (counter : (m.read Program.counterRegister).toNat = k) (small : k < Nat.pow 2 63)
    (place : Nat) (indices : List Nat) :
    decisions (m.eventsOf place (indices.flatMap pair)) =
      indices.map fun i => decide (k = 0 ∨ (i + 1) % 2 = 1) := by
  induction indices generalizing m place with
  | nil => rfl
  | cons i rest ih =>
    have kept : ((m.runBlock (pair i)).read Program.counterRegister).toNat = k := by rw [read_pair, counter]
    rw [List.flatMap_cons, Machine.eventsOf_append, decisions_append, decisions_pair counter small, ih kept,
      List.map_cons, List.singleton_append]

/-- The decisions of a body, by what the counter says. -/
theorem decisions_body (counter : (m.read Program.counterRegister).toNat = k) (small : k < Nat.pow 2 63)
    (place : Nat) : decisions (m.eventsOf place branchHeavy.body) = alternation k := by
  rw [body_branchHeavy]
  exact decisions_pairs counter small place (List.range 10)

end Template

namespace Program

/-! ### One iteration -/

/-- The loop control counts and compares by itself: the flags that it finds make no difference. -/
theorem runBlock_loopControl_withFlags (m : Assembly.Machine) (flags : Flags) :
    ({ m with flags := flags } : Assembly.Machine).runBlock loopControl = m.runBlock loopControl := rfl

theorem eventsOf_loopControl_withFlags (m : Assembly.Machine) (flags : Flags) (place : Nat) :
    ({ m with flags := flags } : Assembly.Machine).eventsOf place loopControl = m.eventsOf place loopControl := rfl

/-- The place of the loop control. -/
def controlPlace (p : Program) : Nat := p.opening.length + 1 + p.template.body.length

/-- From the loop label through the body. -/
theorem reaches_body (p : Program) (m : Assembly.Machine) :
    Reaches p.allLines ⟨m, p.opening.length⟩ (m.eventsOf (p.opening.length + 1) p.template.body)
      ⟨m.runBlock p.template.body, p.controlPlace⟩ := by
  have split : p.allLines = (p.opening ++ [.label loopLabel]) ++ (p.template.body ++ (loopControl
      ++ (p.closing ++ [.instruction p.exitCall]))) := by simp [allLines, turn]
  have falls : fallsThrough p.template.body = true := by cases p.template <;> decide
  have body := Reaches.block p.nodup_labels m p.template.body split falls
  rw [List.length_append, List.length_singleton] at body
  have atLabel : p.allLines[p.opening.length]? = some (.label loopLabel) := by simp [allLines]
  exact .label atLabel body

/-- From the loop control back to the label or out of the loop. -/
theorem reaches_control (p : Program) (m : Assembly.Machine) :
    Reaches p.allLines ⟨m, p.controlPlace⟩ (m.eventsOf p.controlPlace loopControl)
      ⟨m.runBlock loopControl,
        if (m.runBlock loopControl).flags.satisfy .less then p.opening.length else p.loopEnd⟩ := by
  have split : p.allLines = p.opening ++ .label loopLabel ::
      (p.template.body ++ loopTurn loopControl.dropLast .less loopLabel
        ++ (p.closing ++ [.instruction p.exitCall])) := rfl
  exact Reaches.endOfTurn p.template.body m p.nodup_labels split rfl

/-- Iteration `k` of `rounds`, counted from zero, of the alternating branches: from the loop label through the body
    and through the loop control. -/
structure Iteration (lines : List Line) (loop rounds k : Nat) (first next : Assembly.Machine)
    (body control : List Event) : Prop where
  /-- Every instruction of the body is executed once, in order; twenty in all, whatever the branches do. -/
  trace : body.map (·.position) = placesOf (loop + 1) Template.branchHeavy.body
  executed : body.length = 20
  outcomes : decisions body = Template.alternation k
  /-- The loop control comes next. What it does is the same for all flags that the body could leave. -/
  through : ∃ between,
    Reaches lines ⟨first, loop⟩ body ⟨between, loop + 1 + Template.branchHeavy.body.length⟩ ∧
    ∀ flags, Reaches lines ⟨{ between with flags := flags }, loop + 1 + Template.branchHeavy.body.length⟩ control
      ⟨next, if k + 1 < rounds then loop
        else loop + 1 + (Template.branchHeavy.body ++ loopControl).length⟩
  /-- Its branch goes back unless this was the last iteration. -/
  back : decisions control = [decide (k + 1 < rounds)]

variable {p : Program}

/-- The machine when execution comes to the loop label for iteration `k`. -/
def turned (p : Program) (start : Assembly.Machine) (k : Nat) : Assembly.Machine :=
  (p.entered start).runTimes p.turn k

/-- The events of the body in iteration `k`. -/
def bodyOf (p : Program) (start : Assembly.Machine) (k : Nat) : List Event :=
  (p.turned start k).eventsOf (p.opening.length + 1) p.template.body

/-- The events of the loop control in iteration `k`. -/
def controlOf (p : Program) (start : Assembly.Machine) (k : Nat) : List Event :=
  ((p.turned start k).runBlock p.template.body).eventsOf p.controlPlace loopControl

/-- A run goes through its iterations one after the other. -/
theorem events_eq (p : Program) (start : Assembly.Machine) :
    p.events start = start.eventsOf 0 p.opening
      ++ ((List.range p.count.toNat).flatMap (fun k => p.bodyOf start k ++ p.controlOf start k)
        ++ (p.left start).eventsOf p.loopEnd p.closing) := by
  have each (k : Nat) : p.bodyOf start k ++ p.controlOf start k =
      ((p.entered start).runTimes p.turn k).eventsOf (p.opening.length + 1) p.turn := by
    rw [turn, Machine.eventsOf_append]
    rfl
  simp only [events, Machine.eventsTimes_eq_flatMap, each]

/-- Each iteration of the alternating branches does what it should. -/
theorem iteration_turned (branches : p.template = .branchHeavy) (h : Admitted p.count) (start : Assembly.Machine)
    {k : Nat} (early : k < p.count.toNat) :
    Iteration p.allLines p.opening.length p.count.toNat k (p.turned start k) (p.turned start (k + 1))
      (p.bodyOf start k) (p.controlOf start k) := by
  have at' : p.AtLoop start k (p.turned start k) := atLoop_runTimes h start early.le
  have small : k < Nat.pow 2 63 := by
    have bound := h.toNat_lt
    change _ < 2 ^ 63
    omega
  have next : p.turned start (k + 1) = ((p.turned start k).runBlock p.template.body).runBlock loopControl :=
    (Machine.runBlock_append _ _ _)
  have back : (p.turned start (k + 1)).flags.satisfy .less = decide (k + 1 < p.count.toNat) := by
    rw [Bool.eq_iff_iff, decide_eq_true_iff]
    exact at'.branches_iff h early
  have trace : (p.bodyOf start k).map (·.position) = placesOf (p.opening.length + 1) p.template.body :=
    Machine.map_position_eventsOf _ _ _
  have body := p.reaches_body (p.turned start k)
  have decided : decisions (p.controlOf start k) = [(p.turned start (k + 1)).flags.satisfy .less] := by
    rw [next]
    rfl
  refine ⟨branches ▸ trace, ?_, ?_, ⟨(p.turned start k).runBlock p.template.body, ?_, fun flags => ?_⟩, ?_⟩
  · rw [← List.length_map, trace, length_placesOf, branches]
    rfl
  · rw [bodyOf, branches]
    exact Template.decisions_body at'.counter small _
  · simpa only [bodyOf, controlPlace, branches] using body
  · have control := p.reaches_control { (p.turned start k).runBlock p.template.body with flags := flags }
    rw [runBlock_loopControl_withFlags, eventsOf_loopControl_withFlags, ← next, back] at control
    simpa only [controlOf, controlPlace, loopEnd, turn, branches, decide_eq_true_iff] using control
  · rw [decided, back]

/-! ### All iterations -/

/-- The events in the body of the alternating branches, for a loop label at `loop`. -/
def inBody (loop : Nat) (events : List Event) : List Event :=
  events.filter fun event => decide (loop < event.position ∧
    event.position ≤ loop + Template.branchHeavy.body.length)

theorem inBody_append (loop : Nat) (first later : List Event) :
    inBody loop (first ++ later) = inBody loop first ++ inBody loop later := List.filter_append ..

/-- The events of a run in the body are those of the bodies of its iterations. -/
theorem inBody_events (branches : p.template = .branchHeavy) (start : Assembly.Machine) :
    inBody p.opening.length (p.events start) = (List.range p.count.toNat).flatMap (p.bodyOf start) := by
  have outside {m : Assembly.Machine} {place : Nat} {block : List Line}
      (away : place + block.length ≤ p.opening.length + 1 ∨
        p.opening.length + Template.branchHeavy.body.length < place) :
      inBody p.opening.length (m.eventsOf place block) = [] := by
    refine List.filter_eq_nil_iff.2 fun event member => ?_
    have bounds := Machine.position_bounds member
    rw [decide_eq_true_iff]
    omega
  have inside (k : Nat) : inBody p.opening.length (p.bodyOf start k) = p.bodyOf start k := by
    refine List.filter_eq_self.2 fun event member => decide_eq_true ?_
    have bounds := Machine.position_bounds member
    rw [branches] at bounds
    omega
  have behind (k : Nat) : inBody p.opening.length (p.controlOf start k) = [] :=
    outside (.inr (by rw [controlPlace, branches]; omega))
  have bodies : inBody p.opening.length
      ((List.range p.count.toNat).flatMap fun k => p.bodyOf start k ++ p.controlOf start k) =
        (List.range p.count.toNat).flatMap (p.bodyOf start) := by
    rw [inBody, List.filter_flatMap]
    refine congrArg (List.flatMap · _) (funext fun k => ?_)
    change inBody p.opening.length (p.bodyOf start k ++ p.controlOf start k) = _
    rw [inBody_append, inside, behind, List.append_nil]
  rw [events_eq, inBody_append, inBody_append, bodies, outside (by omega),
    outside (by rw [loopEnd, turn, branches, List.length_append]; omega), List.nil_append, List.append_nil]

/-- The decisions of the branches in the bodies, iteration by iteration. -/
theorem decisions_inBody (branches : p.template = .branchHeavy) (h : Admitted p.count) (start : Assembly.Machine) :
    decisions (inBody p.opening.length (p.events start)) =
      (List.range p.count.toNat).flatMap Template.alternation := by
  have each : ∀ k ∈ List.range p.count.toNat,
      (p.bodyOf start k).filterMap Event.decision? = Template.alternation k := fun k member =>
    (iteration_turned branches h start (List.mem_range.1 member)).outcomes
  rw [inBody_events branches, decisions, List.filterMap_flatMap, List.flatMap_def, List.flatMap_def,
    List.map_congr_left each]

/-- Half of the branches are taken, and the other five of the first iteration. -/
theorem count_alternations {rounds : Nat} (positive : 1 ≤ rounds) :
    ((List.range rounds).flatMap Template.alternation).length = 10 * rounds ∧
      ((List.range rounds).flatMap Template.alternation).count true = 5 * rounds + 5 := by
  induction rounds, positive using Nat.le_induction with
  | base => exact ⟨rfl, rfl⟩
  | succ rounds positive ih =>
    have later := Template.count_alternation rounds
    rw [if_neg (by omega)] at later
    rw [List.range_succ, List.flatMap_append, List.flatMap_singleton, List.length_append, List.count_append,
      ih.1, ih.2, later]
    exact ⟨rfl, by omega⟩

/-! ### The whole run -/

/-- What a run of the alternating branches does that starts in `start`, leaves `events` and ends in `final`. -/
structure Alternates (start : Assembly.Machine) (lines : List Line) (loop rounds : Nat) (events : List Event)
    (final : Execution) : Prop where
  /-- The loop label stands at `loop`, and the body follows it. -/
  loopPlace : placeOf lines loopLabel = some loop
  body : Template.branchHeavy.body <+: lines.drop (loop + 1)
  /-- The run comes to the exit call and goes no further. -/
  reaches : Reaches lines ⟨start, 0⟩ events final
  call : AtCall lines final
  halted : step lines final = none
  /-- Between what comes before and behind the loop there are the iterations, one after the other. -/
  iterations : ∃ (before after : List Event) (machines : Nat → Assembly.Machine) (bodies controls : Nat → List Event),
    Reaches lines ⟨start, 0⟩ before ⟨machines 0, loop⟩ ∧
    (∀ k < rounds, Iteration lines loop rounds k (machines k) (machines (k + 1)) (bodies k) (controls k)) ∧
    Reaches lines ⟨machines rounds, loop + 1 + (Template.branchHeavy.body ++ loopControl).length⟩ after final ∧
    events = before ++ ((List.range rounds).flatMap (fun k => bodies k ++ controls k) ++ after)
  /-- How many branches of the body there are in the whole run, and how many of them are taken. -/
  branches : (decisions (inBody loop events)).length = 10 * rounds
  taken : (decisions (inBody loop events)).count true = 5 * rounds + 5

/-- From every state of the machine, at every count that makes a program and on either interface, the branches
    alternate as the template says, and the loop control does not see them. -/
theorem branches_alternate (r : UInt64) (abi : Abi) (start : Assembly.Machine) (h : Admitted r) :
    ∃ lines loop events final,
      Program.bind .branchHeavy r abi = .ok ⟨.branchHeavy, r, abi⟩ ∧
      (⟨.branchHeavy, r, abi⟩ : Program).lines = .ok lines ∧
      (⟨.branchHeavy, r, abi⟩ : Program).source = .ok ((⟨.branchHeavy, r, abi⟩ : Program).header
        ++ (Line.label abi.entrySymbol).text ++ String.join (lines.map Line.text)) ∧
      Alternates start lines loop r.toNat events final := by
  let p : Program := ⟨.branchHeavy, r, abi⟩
  have lines : p.lines = .ok p.allLines := by rw [lines_of_admitted h, allLines, turn]
  have work := doesDeclaredWork_events (p := p) h start
  have decided := decisions_inBody (p := p) rfl h start
  obtain ⟨branches, taken⟩ := count_alternations h.toNat_pos
  have call : AtCall p.allLines (p.final start) := by
    cases abi <;> exact ⟨_, work.call⟩
  refine ⟨p.allLines, p.opening.length, p.events start, p.final start, bind_of_admitted h, lines,
    source_of_lines lines, work.loopPlace, work.body, work.reaches, call, work.halted, ?_, ?_, ?_⟩
  · exact ⟨_, _, p.turned start, p.bodyOf start, p.controlOf start, reaches_loop start,
      fun k early => iteration_turned rfl h start early, reaches_closing start, p.events_eq start⟩
  · rw [decided]
    exact branches
  · rw [decided]
    exact taken

/-- Of seven hundred thousand branches three hundred and fifty thousand and five are taken. -/
theorem branches_alternate_seventyThousand :
    Admitted 70000 ∧ ∃ lines loop events final,
      (⟨.branchHeavy, 70000, .darwin⟩ : Program).lines = .ok lines ∧
      Alternates blank lines loop 70000 events final ∧
      (decisions (inBody loop events)).count true = 350005 := by
  obtain ⟨lines, loop, events, final, -, spelled, -, run⟩ := branches_alternate 70000 .darwin blank (by decide)
  exact ⟨by decide, lines, loop, events, final, spelled, run, run.taken⟩

end Program

end CycleCost
