/-
Module: CycleCost.Proofs.Measurement.Course
Purpose: The course of a timing. A program is run again and again, each time from the state that the run before
  has left, until a run ends the timing or the last wanted one is made. What ends it, how many runs are made and
  which readings are averaged is decided by the answers to the runs alone, and of those before the measured
  ones only by whether they could be made.
Main exports: Act.after, Act.answer, Harness.Stops, warmUp_run, timings_run, measure_run_of_stops,
  measure_run_of_passed, Machine.answers_decide_timing
-/
import CycleCost.Calibration.Rehearsal
import CycleCost.Proofs.Calibration.Agreement
import CycleCost.Proofs.Measurement.Window

namespace CycleCost

variable {σ τ α β : Type}

namespace Act

/-! ### A step taken again and again -/

/-- The state after a step has been taken a number of times. -/
def after (step : Act σ β) (count : Nat) (state : σ) : σ := (fun s => (step.run s).2)^[count] state

/-- The answer to the step at a place, counted from zero, when it is taken again and again. -/
def answer (step : Act σ β) (state : σ) (place : Nat) : Result β := (step.run (step.after place state)).1

variable (step : Act σ β) (state : σ)

/-- The answers after a number of runs are the later answers of the whole course. -/
theorem answer_after (first place : Nat) :
    step.answer (step.after first state) place = step.answer state (first + place) := by
  rw [answer, answer, Nat.add_comm]
  exact congrArg (fun s => (step.run s).1) (Function.iterate_add_apply _ place first state).symm

theorem after_after (first more : Nat) :
    step.after more (step.after first state) = step.after (first + more) state := by
  rw [Nat.add_comm]
  exact (Function.iterate_add_apply _ more first state).symm

/-- A recorder writes the same request down each time. -/
theorem after_recorded (call : Call) (count : Nat) (latest : List Call) :
    (Act.recorded call step).after count ⟨state, latest⟩ =
      ⟨step.after count state, List.replicate count call ++ latest⟩ := by
  induction count generalizing state latest with
  | zero => rfl
  | succ count ih =>
    rw [List.replicate_succ', List.append_assoc]
    exact ih (step.run state).2 (call :: latest)

/-- After a number of steps a recorder holds as many requests. -/
theorem calls_of_after {γ : Type} {later : Act (Recorded σ) γ} {call : Call} {result : Result γ} {count : Nat}
    (ran : later.run ⟨state, []⟩ = (result, (Act.recorded call step).after count ⟨state, []⟩)) :
    (later.run ⟨state, []⟩).2.calls = List.replicate count call := by
  rw [ran, after_recorded, List.append_nil]
  exact List.reverse_replicate

theorem answer_recorded (call : Call) (place : Nat) (latest : List Call) :
    (Act.recorded call step).answer ⟨state, latest⟩ place = step.answer state place := by
  rw [answer, after_recorded]
  rfl

end Act

variable {h : Harness α} {expected : Option Int} {place : Nat} {answer : Result Run}

/-! ### What ends a timing -/

/-- A run is refused only for a status other than the expected one, and the fault gives both. -/
theorem checkExit_eq_error_iff {r : Run} {fault : Fault} : checkExit expected r = .error fault ↔
    ∃ code, expected = some code ∧ r.exit ≠ some code ∧ fault = .unexpectedExit code r.exit := by
  cases expected with
  | none => simp [checkExit]
  | some code =>
    by_cases right : r.exit = some code
    · simp [checkExit, right]
    · simp [checkExit, right, eq_comm]

namespace Harness

/-- Why the answer to the run at a place, counted from zero, ends a timing: the run could not be made, or it is
    a measured one and did not end with the expected exit code. -/
inductive Stops (h : Harness α) (expected : Option Int) (place : Nat) : Result Run → Fault → Prop where
  | unmade (fault : Fault) : Stops h expected place (.error fault) fault
  | wrongExit {r : Run} {code : Int} :
      h.warmups ≤ place → expected = some code → r.exit ≠ some code →
        Stops h expected place (.ok r) (.unexpectedExit code r.exit)

/-- The answer at a place lets a timing go on. -/
def Passes (h : Harness α) (expected : Option Int) (place : Nat) (answer : Result Run) : Prop :=
  ∀ fault, ¬ h.Stops expected place answer fault

theorem Passes.exists_ok (passes : h.Passes expected place answer) : ∃ r, answer = .ok r := by
  cases answer with
  | ok r => exact ⟨r, rfl⟩
  | error fault => exact absurd (.unmade fault) (passes fault)

/-- A measured run that lets the timing go on ended as expected. -/
theorem Passes.checkExit {r : Run} (passes : h.Passes expected place (.ok r)) (late : h.warmups ≤ place) :
    checkExit expected r = .ok () := by
  cases checked : CycleCost.checkExit expected r with
  | ok _ => rfl
  | error fault =>
    obtain ⟨code, known, wrong, rfl⟩ := checkExit_eq_error_iff.1 checked
    exact absurd (.wrongExit late known wrong) (passes _)

/-- Before the measured runs only a run that cannot be made ends a timing. -/
theorem Stops.eq_error {fault : Fault} (stops : h.Stops expected place answer fault) (early : place < h.warmups) :
    answer = .error fault := by
  cases stops with
  | unmade => rfl
  | wrongExit late => omega

/-- The answer at which a course stops is an error or has the wrong status. -/
theorem Stops.judged {fault : Fault} (stops : h.Stops expected place answer fault) :
    (answer >>= CycleCost.checkExit expected) = .error fault := by
  cases stops with
  | unmade => rfl
  | wrongExit _ known wrong => exact checkExit_eq_error_iff.2 ⟨_, known, wrong, rfl⟩

/-- Answers at a place that differ at most in what a timing does not look at: before the measured runs these are
    the exit code and the reading. -/
structure Alike (h : Harness α) (place : Nat) (answer answer' : Result Run) : Prop where
  early : place < h.warmups → (answer.map fun _ => ()) = answer'.map fun _ => ()
  late : h.warmups ≤ place → answer = answer'

variable {answer' : Result Run}

theorem Alike.symm (alike : h.Alike place answer answer') : h.Alike place answer' answer :=
  ⟨fun early => (alike.early early).symm, fun late => (alike.late late).symm⟩

/-- Answers that are alike stop a measurement with the same fault. -/
theorem Alike.stops (alike : h.Alike place answer answer') {fault : Fault}
    (stops : h.Stops expected place answer fault) : h.Stops expected place answer' fault := by
  by_cases late : h.warmups ≤ place
  · exact alike.late late ▸ stops
  · have same := alike.early (not_le.1 late)
    obtain rfl := stops.eq_error (not_le.1 late)
    cases answer' with
    | ok r => cases same
    | error reason =>
      cases same
      exact .unmade fault

theorem Alike.passes (alike : h.Alike place answer answer') (passes : h.Passes expected place answer) :
    h.Passes expected place answer' :=
  fun fault stops => passes fault (alike.symm.stops stops)

end Harness

/-! ### The runs before the measured ones -/

section

variable {run : Act σ Run} {state : σ} {n : Nat} {fault : Fault}

/-- Warm-up runs that are all answered leave no trace but the machine's state. -/
theorem warmUp_run (made : ∀ i < n, ∃ r, run.answer state i = .ok r) :
    (warmUp run n).run state = (.ok (), run.after n state) := by
  induction n generalizing state with
  | zero => rfl
  | succ n ih =>
    obtain ⟨r, first⟩ := made 0 n.succ_pos
    have start : run.run state = (.ok r, (run.run state).2) := Prod.ext first rfl
    rw [warmUp, Act.run_bind, start]
    exact ih fun i few => made (i + 1) (Nat.succ_lt_succ few)

/-- The first run that fails ends the warm-up with its fault. -/
theorem warmUp_run_of_error {i : Nat} (few : i < n) (made : ∀ j < i, ∃ r, run.answer state j = .ok r)
    (failed : run.answer state i = .error fault) :
    (warmUp run n).run state = (.error fault, run.after (i + 1) state) := by
  induction n generalizing state i with
  | zero => cases few
  | succ n ih =>
    cases i with
    | zero =>
      have start : run.run state = (.error fault, (run.run state).2) := Prod.ext failed rfl
      rw [warmUp, Act.run_bind, start]
      rfl
    | succ i =>
      obtain ⟨r, first⟩ := made 0 i.succ_pos
      have start : run.run state = (.ok r, (run.run state).2) := Prod.ext first rfl
      rw [warmUp, Act.run_bind, start]
      exact ih (Nat.lt_of_succ_lt_succ few) (fun j less => made (j + 1) (Nat.succ_lt_succ less)) failed

/-! ### The measured runs -/

variable [Scalar α]

/-- The times of runs that all end as expected are collected with the latest in front. -/
theorem timings_run {measured : List Run}
    (made : ∀ i, (less : i < measured.length) → run.answer state i = .ok measured[i])
    (right : ∀ r ∈ measured, checkExit expected r = .ok ()) (earlier : List α) :
    (timings run expected measured.length earlier).run state =
      (.ok ((measured.map (·.elapsed.milliseconds)).reverse ++ earlier), run.after measured.length state) := by
  induction measured generalizing state earlier with
  | nil => rfl
  | cons r rest ih =>
    have first : run.run state = (.ok r, (run.run state).2) := Prod.ext (made 0 (Nat.succ_pos _)) rfl
    have next : ∀ i, (less : i < rest.length) → run.answer (run.run state).2 i = .ok rest[i] :=
      fun i less => made (i + 1) (Nat.succ_lt_succ less)
    have later := ih next (fun s member => right s (List.mem_cons_of_mem r member)) (r.elapsed.milliseconds :: earlier)
    rw [List.length_cons, timings, Act.run_bind, first]
    dsimp only
    rw [right r List.mem_cons_self, Act.ofResult_ok_bind, later, List.map_cons, List.reverse_cons,
      List.append_assoc]
    rfl

/-- The first run that fails, or has the wrong status, ends the measurement with its fault. -/
theorem timings_run_of_error {i : Nat} (few : i < n)
    (before : ∀ j < i, ∃ r, run.answer state j = .ok r ∧ checkExit expected r = .ok ())
    (failed : (run.answer state i >>= checkExit expected) = .error fault) (earlier : List α) :
    (timings run expected n earlier).run state = (.error fault, run.after (i + 1) state) := by
  induction n generalizing state i earlier with
  | zero => cases few
  | succ n ih =>
    rw [timings, Act.run_bind]
    cases i with
    | zero =>
      cases first : run.answer state 0 with
      | error reason =>
        rw [first] at failed
        cases failed
        have start : run.run state = (.error fault, (run.run state).2) := Prod.ext first rfl
        rw [start]
        rfl
      | ok r =>
        rw [first] at failed
        have wrong : checkExit expected r = .error fault := failed
        have start : run.run state = (.ok r, (run.run state).2) := Prod.ext first rfl
        rw [start]
        dsimp only
        rw [wrong]
        rfl
    | succ i =>
      obtain ⟨r, first, right⟩ := before 0 i.succ_pos
      have start : run.run state = (.ok r, (run.run state).2) := Prod.ext first rfl
      rw [start]
      dsimp only
      rw [right, Act.ofResult_ok_bind]
      exact ih (Nat.lt_of_succ_lt_succ few) (fun j less => before (j + 1) (Nat.succ_lt_succ less)) failed _

omit [Scalar α] in
/-- Either all answers of a timing let it go on, or one is the first that does not. -/
theorem passed_or_first_stop (h : Harness α) (expected : Option Int) (answers : Nat → Result Run) (n : Nat) :
    (∀ i < n, h.Passes expected i (answers i)) ∨
      ∃ place < n, ∃ fault, h.Stops expected place (answers place) fault ∧
        ∀ i < place, h.Passes expected i (answers i) := by
  classical
  by_cases passed : ∀ i < n, h.Passes expected i (answers i)
  · exact .inl passed
  · right
    have some : ∃ place, place < n ∧ ¬ h.Passes expected place (answers place) := by
      simpa only [not_forall, exists_prop] using passed
    obtain ⟨few, ends⟩ := Nat.find_spec some
    obtain ⟨fault, stops⟩ := not_forall_not.1 ends
    refine ⟨Nat.find some, few, fault, stops, fun i less => ?_⟩
    by_contra earlier
    exact Nat.find_min some less ⟨less.trans few, earlier⟩

/-! ### The timing -/

variable {work : UInt64}

/-- Where no run is asked for there are no samples, and the machine is not touched. -/
theorem measure_idle (idle : h.runs = 0) : (measure run expected work h).run state = (.error .noSamples, state) := by
  rw [measure, if_pos idle]
  rfl

/-- A timing ends at the first run that stops it. -/
theorem measure_run_of_stops (wanted : h.runs ≠ 0) (few : place < h.warmups + h.runs)
    (before : ∀ i < place, h.Passes expected i (run.answer state i))
    (stops : h.Stops expected place (run.answer state place) fault) :
    (measure run expected work h).run state = (.error fault, run.after (place + 1) state) := by
  have made : ∀ i < place, ∃ r, run.answer state i = .ok r := fun i less => (before i less).exists_ok
  rw [measure, if_neg wanted]
  by_cases early : place < h.warmups
  · have failed := warmUp_run_of_error early made (stops.eq_error early)
    change (warmUp run h.warmups >>= _).run state = _
    rw [Act.run_bind, failed]
  · obtain ⟨i, rfl⟩ := Nat.exists_eq_add_of_le (not_lt.1 early)
    have warm := warmUp_run fun j less => made j (less.trans_le (Nat.le_add_right _ i))
    have passed : ∀ j < i, ∃ r, run.answer (run.after h.warmups state) j = .ok r ∧ checkExit expected r = .ok () := by
      intro j less
      have passes := before (h.warmups + j) (Nat.add_lt_add_left less _)
      obtain ⟨r, same⟩ := passes.exists_ok
      rw [same] at passes
      exact ⟨r, (run.answer_after state _ j).trans same, passes.checkExit (Nat.le_add_right _ j)⟩
    have failed : (run.answer (run.after h.warmups state) i >>= checkExit expected) = .error fault := by
      rw [run.answer_after]
      exact stops.judged
    have ended := timings_run_of_error (Nat.lt_of_add_lt_add_left few) passed failed ([] : List α)
    rw [run.after_after] at ended
    change (warmUp run h.warmups >>= _).run state = _
    rw [Act.run_bind, warm]
    change (timings run expected h.runs [] >>= _).run _ = _
    rw [Act.run_bind, ended]
    rfl

/-- A timing that no run stops averages the readings of the measured runs. -/
theorem measure_run_of_passed (work : UInt64) (wanted : h.runs ≠ 0)
    (passed : ∀ i < h.warmups + h.runs, h.Passes expected i (run.answer state i)) :
    ∃ measured : List Run, measured.length = h.runs ∧
      (∀ i, (less : i < measured.length) → run.answer state (h.warmups + i) = .ok measured[i]) ∧
      ∃ summary, Sample.summarize (measured.map (·.elapsed.milliseconds)) h.trimFraction = .ok summary ∧
        (measure run expected work h).run state =
          (.ok ⟨work, summary.mean, summary.deviation, summary.used⟩, run.after (h.warmups + h.runs) state) := by
  have warm := warmUp_run fun i less => (passed i (less.trans_le (Nat.le_add_right _ h.runs))).exists_ok
  have made : ∀ i : Fin h.runs, ∃ r, run.answer state (h.warmups + i) = .ok r := by
    intro i
    exact (passed _ (Nat.add_lt_add_left i.isLt _)).exists_ok
  choose reading answered using made
  have size : (List.ofFn reading).length = h.runs := List.length_ofFn
  have measured : ∀ i, (less : i < (List.ofFn reading).length) →
      run.answer state (h.warmups + i) = .ok (List.ofFn reading)[i] := by
    intro i less
    rw [List.getElem_ofFn]
    exact answered ⟨i, size ▸ less⟩
  have later : ∀ i, (less : i < (List.ofFn reading).length) →
      run.answer (run.after h.warmups state) i = .ok (List.ofFn reading)[i] := by
    intro i less
    rw [run.answer_after]
    exact measured i less
  have right : ∀ r ∈ List.ofFn reading, checkExit expected r = .ok () := by
    intro r member
    obtain ⟨i, rfl⟩ := List.mem_ofFn.1 member
    have passes := passed _ (Nat.add_lt_add_left i.isLt _)
    rw [answered i] at passes
    exact passes.checkExit (Nat.le_add_right _ _)
  have ran := timings_run later right ([] : List α)
  rw [size, run.after_after, List.append_nil] at ran
  have present : (List.ofFn reading).map (fun r => (r.elapsed.milliseconds : α)) ≠ [] := by
    rw [← List.length_pos_iff, List.length_map, size]
    exact Nat.pos_of_ne_zero wanted
  have averaged := Sample.summarize_eq_ok present h.trimFraction
  refine ⟨List.ofFn reading, size, measured, _, averaged, ?_⟩
  rw [measure, if_neg wanted]
  change (warmUp run h.warmups >>= _).run state = _
  rw [Act.run_bind, warm]
  change (timings run expected h.runs [] >>= _).run _ = _
  rw [Act.run_bind, ran]
  dsimp only
  rw [List.reverse_reverse, averaged, Act.ofResult_ok_bind]
  rfl

/-- Of the timing only what it looks at matters, whatever the machine. -/
theorem outcome_measure_congr {run' : Act τ Run} {state' : τ}
    (alike : ∀ i < h.warmups + h.runs, h.Alike i (run.answer state i) (run'.answer state' i)) :
    ((measure run' expected work h).run state').1 = ((measure run expected work h).run state).1 := by
  by_cases idle : h.runs = 0
  · rw [measure_idle idle, measure_idle idle]
  · rcases passed_or_first_stop h expected (run.answer state) (h.warmups + h.runs) with
      passed | ⟨place, few, fault, stops, before⟩
    · obtain ⟨measured, size, answered, summary, averaged, ran⟩ := measure_run_of_passed work idle passed
      obtain ⟨measured', size', answered', summary', averaged', ran'⟩ := measure_run_of_passed work idle
        fun i less => (alike i less).passes (passed i less)
      have same : measured' = measured := by
        apply List.ext_getElem (size'.trans size.symm)
        intro i less less'
        have place := (alike (h.warmups + i) (Nat.add_lt_add_left (size ▸ less') _)).late (Nat.le_add_right _ i)
        rw [answered i less', answered' i less] at place
        exact (Except.ok.inj place).symm
      rw [same, averaged] at averaged'
      cases averaged'
      rw [ran, ran']
    · rw [measure_run_of_stops idle few before stops, measure_run_of_stops idle few
        (fun i less => (alike i (less.trans few)).passes (before i less)) ((alike place few).stops stops)]

/-! ### The requests of a timing -/

variable {call : Call}

theorem calls_measure_idle (idle : h.runs = 0) :
    ((measure (Act.recorded call run) expected work h).run ⟨state, []⟩).2.calls = [] := by
  rw [measure_idle idle]
  rfl

/-- A measurement that stops has made no call after the one that stopped it. -/
theorem calls_measure_of_stops (wanted : h.runs ≠ 0) (few : place < h.warmups + h.runs)
    (before : ∀ i < place, h.Passes expected i (run.answer state i))
    (stops : h.Stops expected place (run.answer state place) fault) :
    ((measure (Act.recorded call run) expected work h).run ⟨state, []⟩).2.calls =
      List.replicate (place + 1) call := by
  have before' : ∀ i < place, h.Passes expected i ((Act.recorded call run).answer ⟨state, []⟩ i) := by
    intro i less
    rw [Act.answer_recorded]
    exact before i less
  have stops' : h.Stops expected place ((Act.recorded call run).answer ⟨state, []⟩ place) fault := by
    rw [Act.answer_recorded]
    exact stops
  exact Act.calls_of_after run state (measure_run_of_stops wanted few before' stops')

/-- A measurement that passes makes its warm-up calls and its measured calls, and no other. -/
theorem calls_measure_of_passed (wanted : h.runs ≠ 0)
    (passed : ∀ i < h.warmups + h.runs, h.Passes expected i (run.answer state i)) :
    ((measure (Act.recorded call run) expected work h).run ⟨state, []⟩).2.calls =
      List.replicate (h.warmups + h.runs) call := by
  have passed' : ∀ i < h.warmups + h.runs, h.Passes expected i ((Act.recorded call run).answer ⟨state, []⟩ i) := by
    intro i less
    rw [Act.answer_recorded]
    exact passed i less
  obtain ⟨_, _, _, _, _, ran⟩ := measure_run_of_passed work wanted passed'
  exact Act.calls_of_after run state ran

end

namespace Machine

/-- What the runs of a timing come to. No run is asked for when none is to be measured. Otherwise the program is
    run with the limit of the harness, up to the first run that stops the timing, and the reason is its outcome;
    and when none of the wanted runs stops it, all of them are made, and the times of the measured ones, in
    seconds and nanoseconds that are put together to milliseconds, are averaged. Two machines whose runs before
    the measured ones are made or not made alike, and whose measured runs have the same answers, time alike. -/
theorem answers_decide_timing [Scalar α] (m : Machine σ) (program : String) (expected : Option Int)
    (work : UInt64) (h : Harness α) (state : σ) :
    let answer := (m.run program h.timeout).answer state
    let outcome := ((measure (m.run program h.timeout) expected work h).run state).1
    let calls := ((measure (m.recorded.run program h.timeout) expected work h).run ⟨state, []⟩).2.calls
    let request := Call.run program h.timeout
    let wanted := h.warmups + h.runs
    (h.runs = 0 → outcome = .error .noSamples ∧ calls = []) ∧
    (h.runs ≠ 0 →
      calls.length ≤ wanted ∧
      ((∃ o, outcome = .ok o) ↔ ∀ i < wanted, h.Passes expected i (answer i)) ∧
      (∀ place < wanted, ∀ fault, h.Stops expected place (answer place) fault →
        (∀ i < place, h.Passes expected i (answer i)) →
        outcome = .error fault ∧ calls = List.replicate (place + 1) request) ∧
      ((∀ i < wanted, h.Passes expected i (answer i)) → calls = List.replicate wanted request ∧
        ∃ measured : List Run, measured.length = h.runs ∧
          (∀ i, (less : i < measured.length) → answer (h.warmups + i) = .ok measured[i]) ∧
          ∃ summary, Sample.summarize (measured.map fun r => (Scalar.ofNat (r.elapsed.nanoseconds / 1000000000) +
              Scalar.ofNat (r.elapsed.nanoseconds % 1000000000) / Scalar.ofNat 1000000000) * Scalar.ofNat 1000)
            h.trimFraction = .ok summary ∧
            outcome = .ok ⟨work, summary.mean, summary.deviation, summary.used⟩)) ∧
    ∀ {τ : Type} (other : Machine τ) (program' : String) (state' : τ),
      (∀ i < wanted, h.Alike i (answer i) ((other.run program' h.timeout).answer state' i)) →
      ((measure (other.run program' h.timeout) expected work h).run state').1 = outcome := by
  intro answer outcome calls request wanted
  refine ⟨fun idle => ⟨congrArg Prod.fst (measure_idle idle), calls_measure_idle idle⟩, fun some => ?made,
    fun other program' state' alike => outcome_measure_congr alike⟩
  have ended : ∀ place < wanted, ∀ fault, h.Stops expected place (answer place) fault →
      (∀ i < place, h.Passes expected i (answer i)) →
      outcome = .error fault ∧ calls = List.replicate (place + 1) request := by
    intro place few fault stops before
    exact ⟨congrArg Prod.fst (measure_run_of_stops some few before stops),
      calls_measure_of_stops some few before stops⟩
  have averaged (passed : ∀ i < wanted, h.Passes expected i (answer i)) :=
    measure_run_of_passed work some passed
  refine ⟨?few, ⟨?passed, ?measured⟩, ended, ?outcome⟩
  case few =>
    rcases passed_or_first_stop h expected answer wanted with passed | ⟨place, few, fault, stops, before⟩
    · have all : calls = List.replicate wanted request := calls_measure_of_passed some passed
      rw [all, List.length_replicate]
    · rw [(ended place few fault stops before).2, List.length_replicate]
      exact few
  case passed =>
    rintro ⟨o, measured⟩
    rcases passed_or_first_stop h expected answer wanted with passed | ⟨place, few, fault, stops, before⟩
    · exact passed
    · have failed := (ended place few fault stops before).1
      rw [measured] at failed
      cases failed
  case measured =>
    intro passed
    obtain ⟨_, _, _, _, _, ran⟩ := averaged passed
    exact ⟨_, congrArg Prod.fst ran⟩
  case outcome =>
    intro passed
    obtain ⟨measured, size, answered, summary, figures, ran⟩ := averaged passed
    exact ⟨calls_measure_of_passed some passed, measured, size, answered, summary, figures,
      congrArg Prod.fst ran⟩

/-- A program whose run before the measured ones ends with a code that is not looked at, and whose second measured
    run is ended by a signal, and one that always ends well. -/
def interrupted : Machine Rehearsal.Stage := Rehearsal.machine ⟨[
  ("/bin/loop", [⟨⟨1⟩, some 7, none⟩, ⟨⟨2⟩, some 0, none⟩, ⟨⟨3⟩, none, none⟩]),
  ("/bin/sum", [⟨⟨9000000⟩, some 7, none⟩, ⟨⟨3000000⟩, some 0, none⟩, ⟨⟨5000000⟩, some 0, none⟩,
    ⟨⟨4000000⟩, some 0, none⟩])], [], [], []⟩

/-- One run that is thrown away and three that are measured. -/
def threeRuns : Harness ℚ := ⟨3, 1, 0, ⟨9⟩⟩

/-- Of the first program three of the four wanted runs are made, and the last of them has left no exit code. The
    second one takes 4 ms on average. -/
theorem answers_decide_timing_interrupted :
    ((measure (interrupted.run "/bin/loop" ⟨9⟩) (some 0) 5 threeRuns).run .start).1 =
      .error (.unexpectedExit 0 none) ∧
    ((measure (interrupted.recorded.run "/bin/loop" ⟨9⟩) (some 0) 5 threeRuns).run ⟨.start, []⟩).2.calls =
      List.replicate 3 (.run "/bin/loop" ⟨9⟩) ∧
    (∃ o, ((measure (interrupted.run "/bin/sum" ⟨9⟩) (some 0) 5 threeRuns).run .start).1 = .ok o ∧
      o.workUnits = 5 ∧ o.timeMs = 4 ∧ o.runsUsed = 3) ∧
    ((measure (interrupted.recorded.run "/bin/sum" ⟨9⟩) (some 0) 5 threeRuns).run ⟨.start, []⟩).2.calls =
      List.replicate 4 (.run "/bin/sum" ⟨9⟩) := by
  obtain ⟨-, loops, -⟩ := answers_decide_timing interrupted "/bin/loop" (some 0) 5 threeRuns .start
  obtain ⟨-, sums, -⟩ := answers_decide_timing interrupted "/bin/sum" (some 0) 5 threeRuns .start
  rw [← and_assoc]
  constructor
  · have first : (interrupted.run "/bin/loop" ⟨9⟩).answer .start 0 = .ok ⟨some 7, ⟨1⟩⟩ := rfl
    have second : (interrupted.run "/bin/loop" ⟨9⟩).answer .start 1 = .ok ⟨some 0, ⟨2⟩⟩ := rfl
    have third : (interrupted.run "/bin/loop" ⟨9⟩).answer .start 2 = .ok ⟨none, ⟨3⟩⟩ := rfl
    apply (loops (by decide)).2.2.1 2 (by decide)
    · rw [threeRuns, third]
      exact .wrongExit (by decide) rfl (by decide)
    · intro i less fault stops
      have places : i = 0 ∨ i = 1 := by omega
      rcases places with rfl | rfl
      · rw [threeRuns, first] at stops
        cases stops with
        | wrongExit late => exact absurd late (by decide)
      · rw [threeRuns, second] at stops
        cases stops with
        | wrongExit _ known wrong => exact wrong known
  · let runs : List Run := [⟨some 0, ⟨3000000⟩⟩, ⟨some 0, ⟨5000000⟩⟩, ⟨some 0, ⟨4000000⟩⟩]
    have first : (interrupted.run "/bin/sum" ⟨9⟩).answer .start 0 = .ok ⟨some 7, ⟨9000000⟩⟩ := rfl
    have later (i : Nat) (less : i < runs.length) :
        (interrupted.run "/bin/sum" ⟨9⟩).answer .start (1 + i) = .ok runs[i] := by
      have places : i = 0 ∨ i = 1 ∨ i = 2 := by
        simp only [runs, List.length_cons, List.length_nil] at less
        omega
      rcases places with rfl | rfl | rfl <;> rfl
    have passed : ∀ i < 4, threeRuns.Passes (some 0) i ((interrupted.run "/bin/sum" ⟨9⟩).answer .start i) := by
      intro i less fault stops
      rcases Nat.eq_zero_or_pos i with rfl | positive
      · rw [first] at stops
        cases stops with
        | wrongExit late => exact absurd late (by decide)
      · obtain ⟨j, rfl⟩ := Nat.exists_eq_add_of_le positive
        have few : j < runs.length := Nat.lt_of_add_lt_add_left less
        have well : ∀ r ∈ runs, r.exit = some 0 := by decide
        rw [later j few] at stops
        cases stops with
        | wrongExit _ known wrong => exact wrong (known ▸ well _ (List.getElem_mem few))
    obtain ⟨calls, measured, length, answered, summary, averaged, outcome⟩ := (sums (by decide)).2.2.2 passed
    have same : measured = runs := by
      apply List.ext_getElem length
      intro i less few
      exact Except.ok.inj ((answered i less).symm.trans (later i few))
    subst same
    have times : (runs.map fun r => (Scalar.ofNat (r.elapsed.nanoseconds / 1000000000) +
        Scalar.ofNat (r.elapsed.nanoseconds % 1000000000) / Scalar.ofNat 1000000000) * Scalar.ofNat 1000) =
        [3, 5, (4 : ℚ)] := by decide +kernel
    have ascending : Sample.sorted [3, 5, (4 : ℚ)] = [3, 4, 5] := Sample.sorted_eq (by decide) (by decide)
    have none : Sample.cut 3 (0 : ℚ) = 0 := by decide +kernel
    have kept : Sample.kept [3, 5, (4 : ℚ)] 0 = [3, 4, 5] := by
      simp [Sample.kept, ascending, none, Sample.minimumKept]
    rw [times] at averaged
    change Sample.summarize [3, 5, 4] 0 = _ at averaged
    rw [Sample.summarize_eq_ok (List.cons_ne_nil _ _), kept] at averaged
    obtain rfl := Except.ok.inj averaged
    refine ⟨⟨_, outcome, rfl, ?_, rfl⟩, calls⟩
    rw [Scalar.mean_eq]
    norm_num

end Machine

end CycleCost
