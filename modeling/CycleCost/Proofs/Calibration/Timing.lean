/-
Module: CycleCost.Proofs.Calibration.Timing
Purpose: A timing seen from the machine: which runs of a program are asked for, and what their answers come
  to. The runs are asked for one after another and stop at the first failing one; the outcome is a function
  of the answers alone, `Harness.reduce`.
Main exports: Harness.callFault, Harness.firstFault, Harness.Calls, Harness.Dialogue, Harness.reduce,
  Dialogue.exists_ok, measure_yields
-/
import CycleCost.Proofs.Calibration.Transcript

namespace CycleCost

variable {σ α : Type}

namespace Harness

/-- Why the answer to the call at a place, counted from zero, ends a timing. A run before the measured ones
    only has to be made; a measured run also has to end as expected. -/
def callFault (h : Harness α) (expected : Option Int) (place : Nat) : Result Run → Option Fault
  | .error fault => some fault
  | .ok r =>
    if place < h.warmups then none
    else match checkExit expected r with
      | .error fault => some fault
      | .ok _ => none

/-- Why the first failing call fails, of the answers to the calls from a place on. -/
def firstFault (h : Harness α) (expected : Option Int) : Nat → List (Result Run) → Option Fault
  | _, [] => none
  | place, answer :: rest =>
    (h.callFault expected place answer).or (h.firstFault expected (place + 1) rest)

/-- The answers to at most `n` calls from a place on, none of which comes after a failing one. -/
inductive Calls (h : Harness α) (expected : Option Int) : Nat → Nat → List (Result Run) → Prop where
  | done (place : Nat) : Calls h expected place 0 []
  | failed {place n : Nat} {answer : Result Run} {fault : Fault} :
      h.callFault expected place answer = some fault → Calls h expected place (n + 1) [answer]
  | passed {place n : Nat} {answer : Result Run} {rest : List (Result Run)} :
      h.callFault expected place answer = none → Calls h expected (place + 1) n rest →
        Calls h expected place (n + 1) (answer :: rest)

/-- The answers that a timing gets: none when there is nothing to measure, else those to the runs before the
    measured ones and to the measured ones, up to the first failing one. -/
def Dialogue (h : Harness α) (expected : Option Int) (answers : List (Result Run)) : Prop :=
  if h.runs = 0 then answers = [] else h.Calls expected 0 (h.warmups + h.runs) answers

/-- How long a run took that was made. -/
def elapsed : Result Run → Option Duration
  | .ok r => some r.elapsed
  | .error _ => none

/-- The times of the measured runs in milliseconds. -/
def readings [Scalar α] (h : Harness α) (answers : List (Result Run)) : List α :=
  ((answers.drop h.warmups).filterMap elapsed).map Duration.milliseconds

/-- What the answers to the runs of a program come to. -/
def reduce [Scalar α] (h : Harness α) (expected : Option Int) (work : UInt64)
    (answers : List (Result Run)) : Result (Observation α) :=
  if h.runs = 0 then .error .noSamples
  else match h.firstFault expected 0 answers with
    | some fault => .error fault
    | none =>
      (Sample.summarize (h.readings answers) h.trimFraction).map fun s =>
        ⟨work, s.mean, s.deviation, s.used⟩

variable {h : Harness α} {expected : Option Int}

/-- The first fault of a list is the one of its front, else the one of its back. -/
theorem firstFault_append (place : Nat) (front back : List (Result Run)) :
    h.firstFault expected place (front ++ back) =
      (h.firstFault expected place front).or (h.firstFault expected (place + front.length) back) := by
  induction front generalizing place with
  | nil => rfl
  | cons answer rest ih =>
    rw [List.cons_append, firstFault, firstFault, ih, Option.or_assoc, List.length_cons,
      Nat.add_right_comm, Nat.add_assoc]

/-- An answer that is no run fails wherever it stands. -/
theorem ok_of_callFault {place : Nat} {answer : Result Run}
    (fine : h.callFault expected place answer = none) : ∃ r, answer = .ok r := by
  cases answer with
  | error fault => cases fine
  | ok r => exact ⟨r, rfl⟩

namespace Calls

variable {place n : Nat} {answers : List (Result Run)}

/-- Without a failing call all of them are made. -/
theorem length_eq (c : h.Calls expected place n answers)
    (fine : h.firstFault expected place answers = none) : answers.length = n := by
  induction c with
  | done place => rfl
  | failed fails =>
    rw [firstFault, fails] at fine
    cases fine
  | passed first rest ih =>
    rw [firstFault, first] at fine
    exact congrArg (· + 1) (ih fine)

/-- Calls among which one fails stop at it. -/
theorem stopped (c : h.Calls expected place n answers) {fault : Fault}
    (fails : h.firstFault expected place answers = some fault) :
    ∃ front last, answers = front ++ [last] ∧ front.length < n ∧
      h.firstFault expected place front = none ∧
      h.callFault expected (place + front.length) last = some fault := by
  induction c with
  | done place => cases fails
  | @failed place n answer reason first =>
    rw [firstFault, first, Option.some_or] at fails
    cases fails
    exact ⟨[], answer, rfl, Nat.succ_pos n, rfl, first⟩
  | @passed place n answer rest fine later ih =>
    rw [firstFault, fine, Option.none_or] at fails
    obtain ⟨front, last, rfl, few, before, first⟩ := ih fails
    refine ⟨answer :: front, last, rfl, Nat.succ_lt_succ few, ?_, ?_⟩
    · rw [firstFault, fine, Option.none_or, before]
    · rw [List.length_cons, Nat.add_comm front.length, ← Nat.add_assoc]
      exact first

/-- Calls that stopped at a failing one are also the first of more calls. -/
theorem weaken (c : h.Calls expected place n answers) {fault : Fault}
    (fails : h.firstFault expected place answers = some fault) (k : Nat) :
    h.Calls expected place (n + k) answers := by
  induction c with
  | done place => cases fails
  | failed first =>
    rw [Nat.add_right_comm]
    exact .failed first
  | passed fine rest ih =>
    rw [firstFault, fine] at fails
    rw [Nat.add_right_comm]
    exact .passed fine (ih fails)

/-- More calls follow those among which none failed. -/
theorem append {k : Nat} {later : List (Result Run)} (c : h.Calls expected place n answers)
    (fine : h.firstFault expected place answers = none)
    (d : h.Calls expected (place + n) k later) : h.Calls expected place (n + k) (answers ++ later) := by
  induction c with
  | done place => simpa using d
  | failed fails =>
    rw [firstFault, fails] at fine
    cases fine
  | @passed place n answer rest first others ih =>
    rw [firstFault, first] at fine
    rw [Nat.add_right_comm]
    refine .passed first (ih fine ?_)
    rw [Nat.add_right_comm, Nat.add_assoc]
    exact d

end Calls

/-! ### What the answers come to -/

section

variable [Scalar α] {work : UInt64} {answers : List (Result Run)}

/-- A fault among the answers is the measurement's result. -/
theorem reduce_of_fault (wanted : h.runs ≠ 0) {fault : Fault}
    (fails : h.firstFault expected 0 answers = some fault) :
    h.reduce expected work answers = .error fault := by
  rw [reduce, if_neg wanted, fails]

/-- Answers without a fault are averaged over the trimmed readings. -/
theorem reduce_of_fine (wanted : h.runs ≠ 0) (fine : h.firstFault expected 0 answers = none) :
    h.reduce expected work answers = (Sample.summarize (h.readings answers) h.trimFraction).map
      fun s => ⟨work, s.mean, s.deviation, s.used⟩ := by
  rw [reduce, if_neg wanted, fine]

/-- The work of an observation is the work that was declared. -/
theorem workUnits_of_reduce {o : Observation α} (done : h.reduce expected work answers = .ok o) :
    o.workUnits = work := by
  rw [reduce] at done
  split at done
  · cases done
  split at done
  · cases done
  · cases found : Sample.summarize (h.readings answers) h.trimFraction with
    | error fault =>
      rw [found] at done
      cases done
    | ok s =>
      rw [found] at done
      cases done
      rfl

end

/-- Answers without a failing call are all answers of runs that were made. -/
theorem length_filterMap_of_firstFault {place : Nat} {answers : List (Result Run)}
    (fine : h.firstFault expected place answers = none) :
    (answers.filterMap elapsed).length = answers.length := by
  induction answers generalizing place with
  | nil => rfl
  | cons answer rest ih =>
    obtain ⟨first, later⟩ := Option.or_eq_none_iff.1 fine
    obtain ⟨r, rfl⟩ := ok_of_callFault first
    exact congrArg (· + 1) (ih later)

namespace Dialogue

variable [Scalar α] {work : UInt64} {answers : List (Result Run)}

/-- A timing without a failing call has an observation. -/
theorem exists_ok (d : h.Dialogue expected answers) (wanted : h.runs ≠ 0)
    (fine : h.firstFault expected 0 answers = none) : ∃ o, h.reduce expected work answers = .ok o := by
  rw [Dialogue, if_neg wanted] at d
  have all : answers.length = h.warmups + h.runs := d.length_eq fine
  have measured := fine
  rw [← List.take_append_drop h.warmups answers, firstFault_append, Option.or_eq_none_iff] at measured
  have read : (h.readings answers).length = h.runs := by
    rw [readings, List.length_map, length_filterMap_of_firstFault measured.2, List.length_drop, all,
      Nat.add_sub_cancel_left]
  have present : ¬ (h.readings answers).isEmpty := by
    rw [List.isEmpty_iff_length_eq_zero, read]
    exact wanted
  rw [reduce_of_fine wanted fine, Sample.summarize, if_neg present]
  exact ⟨_, rfl⟩

/-- A timing with an observation made every run that was wanted. -/
theorem length_eq (d : h.Dialogue expected answers) {o : Observation α}
    (done : h.reduce expected work answers = .ok o) : answers.length = h.warmups + h.runs := by
  rw [reduce] at done
  split at done
  · cases done
  next wanted =>
    rw [Dialogue, if_neg wanted] at d
    split at done
    · cases done
    next fine => exact d.length_eq fine

/-- A timing without an observation either had nothing to measure, or it stopped at the failing call. -/
theorem stopped (d : h.Dialogue expected answers) {fault : Fault}
    (failed : h.reduce expected work answers = .error fault) :
    h.runs = 0 ∧ answers = [] ∧ fault = .noSamples ∨
      ∃ front last, answers = front ++ [last] ∧ front.length < h.warmups + h.runs ∧
        h.firstFault expected 0 front = none ∧ h.callFault expected front.length last = some fault := by
  by_cases idle : h.runs = 0
  · rw [Dialogue, if_pos idle] at d
    rw [reduce, if_pos idle] at failed
    exact .inl ⟨idle, d, (Except.error.inj failed).symm⟩
  cases found : h.firstFault expected 0 answers with
  | none =>
    obtain ⟨o, done⟩ := d.exists_ok idle found
    rw [failed] at done
    cases done
  | some reason =>
    rw [reduce_of_fault idle found] at failed
    cases failed
    rw [Dialogue, if_neg idle] at d
    obtain ⟨front, last, split, few, before, first⟩ := d.stopped found
    rw [Nat.zero_add] at first
    exact .inr ⟨front, last, split, few, before, first⟩

end Dialogue

end Harness

/-! ### The runs that a timing asks for -/

variable {run : Act (Transcript σ) Run} {exchange : Result Run → Exchange}

/-- The runs before the measured ones, up to the first that cannot be made. -/
theorem warmUp_yields (asks : run.Yields fun ex r => ex = [exchange r]) (h : Harness α)
    (expected : Option Int) {place n : Nat} (early : place + n ≤ h.warmups) :
    (warmUp run n).Yields fun ex r => ∃ answers, ex = answers.map exchange ∧
      h.Calls expected place n answers ∧ r = (h.firstFault expected place answers).elim (.ok ()) .error := by
  -- All places are below the measured ones, so only a failure to run counts.
  induction n generalizing place with
  | zero => exact .pure ⟨[], rfl, .done place, rfl⟩
  | succ n ih =>
    refine asks.bind (fun r first only => ?_) fun fault first only => ?_
    · have fine : h.callFault expected place (.ok r) = none := if_pos (by omega)
      have next : place + 1 + n ≤ h.warmups := by omega
      refine (ih next).mono fun rest outcome found => ?_
      obtain ⟨answers, rfl, calls, rfl⟩ := found
      refine ⟨.ok r :: answers, ?_, .passed fine calls, ?_⟩
      · rw [only, List.map_cons, List.singleton_append]
      · rw [Harness.firstFault, fine, Option.none_or]
    · exact ⟨[.error fault], only, .failed rfl, rfl⟩

variable [Scalar α]

/-- The measured runs, up to the first that cannot be made or ends wrongly, and their times. -/
theorem timings_yields (asks : run.Yields fun ex r => ex = [exchange r]) (h : Harness α)
    (expected : Option Int) {place : Nat} (n : Nat) (earlier : List α) (late : h.warmups ≤ place) :
    (timings run expected n earlier).Yields fun ex r => ∃ answers, ex = answers.map exchange ∧
      h.Calls expected place n answers ∧
      r = (h.firstFault expected place answers).elim
        (.ok (((answers.filterMap Harness.elapsed).map Duration.milliseconds).reverse ++ earlier)) .error := by
  -- From the first measured place on, a run that was made is also judged by its exit code.
  induction n generalizing place earlier with
  | zero => exact .pure ⟨[], rfl, .done place, rfl⟩
  | succ n ih =>
    refine asks.bind (fun r first only => ?_) fun fault first only => ?_
    · have judged : h.callFault expected place (.ok r) =
          match checkExit expected r with | .error fault => some fault | .ok _ => none :=
        if_neg (Nat.not_lt.2 late)
      refine (Act.Yields.ofResult (P := fun ex o => ex = [] ∧ o = checkExit expected r)
        ⟨rfl, rfl⟩).bind (fun _ silent found => ?_) fun fault silent found => ?_
      · obtain ⟨rfl, right⟩ := found
        rw [← right] at judged
        refine (ih (r.elapsed.milliseconds :: earlier) (Nat.le_succ_of_le late)).mono fun rest outcome found => ?_
        obtain ⟨answers, rfl, calls, rfl⟩ := found
        refine ⟨.ok r :: answers, ?_, .passed judged calls, ?_⟩
        · rw [only, List.map_cons, List.nil_append, List.singleton_append]
        · rw [Harness.firstFault, judged, Option.none_or]
          simp [Harness.elapsed]
      · obtain ⟨rfl, wrong⟩ := found
        rw [← wrong] at judged
        refine ⟨[.ok r], ?_, .failed judged, ?_⟩
        · rw [only, List.append_nil, List.map_singleton]
        · rw [Harness.firstFault, judged, Option.some_or]
          rfl
    · exact ⟨[.error fault], only, .failed rfl, rfl⟩

/-- What comes to a failure, if there is one, and to a value otherwise, is that value only without one. -/
theorem eq_none_of_ok {β : Type} {fault : Option Fault} {b c : β}
    (h : (.ok b : Result β) = fault.elim (.ok c) .error) : fault = none ∧ b = c := by
  cases fault with
  | none => exact ⟨rfl, Except.ok.inj h⟩
  | some fault => cases h

theorem eq_some_of_error {β : Type} {fault : Option Fault} {reason : Fault} {c : β}
    (h : (.error reason : Result β) = fault.elim (.ok c) .error) : fault = some reason := by
  cases fault with
  | none => cases h
  | some fault => exact congrArg some (Except.error.inj h).symm

/-- After the runs before them, the measured runs and their readings decide the outcome. -/
theorem measured_yields (asks : run.Yields fun ex r => ex = [exchange r]) {expected : Option Int}
    (work : UInt64) {h : Harness α} (wanted : h.runs ≠ 0) {thrown : List (Result Run)}
    (all : thrown.length = h.warmups) (fine : h.firstFault expected 0 thrown = none) :
    Act.Yields
      (do let readings ← timings run expected h.runs []
          let s ← Act.ofResult (Sample.summarize readings.reverse h.trimFraction)
          return (⟨work, s.mean, s.deviation, s.used⟩ : Observation α))
      fun ex r => ∃ measured, ex = measured.map exchange ∧
        h.Calls expected h.warmups h.runs measured ∧ r = h.reduce expected work (thrown ++ measured) := by
  have later (measured : List (Result Run)) : h.firstFault expected 0 (thrown ++ measured) =
      h.firstFault expected h.warmups measured := by
    rw [Harness.firstFault_append, fine, all, Option.none_or, Nat.zero_add]
  refine (timings_yields asks h expected h.runs [] (Nat.le_refl _)).bind (fun readings first found => ?_)
    fun fault first found => ?_
  · obtain ⟨measured, rfl, calls, kept⟩ := found
    obtain ⟨right, rfl⟩ := eq_none_of_ok kept
    have outcome : h.reduce expected work (thrown ++ measured) = _ :=
      Harness.reduce_of_fine wanted ((later measured).trans right)
    have same : h.readings (thrown ++ measured) =
        (((measured.filterMap Harness.elapsed).map Duration.milliseconds).reverse ++ []).reverse := by
      rw [Harness.readings, List.drop_left' all, List.append_nil, List.reverse_reverse]
    rw [same] at outcome
    refine (Act.Yields.ofResult (P := fun ex o => ex = [] ∧ o = Sample.summarize _ h.trimFraction)
      ⟨rfl, rfl⟩).bind (fun summary silent found => ?_) fun fault silent found => ?_
    · obtain ⟨rfl, figures⟩ := found
      rw [← figures] at outcome
      exact .pure ⟨measured, by simp only [List.append_nil], calls, outcome.symm⟩
    · obtain ⟨rfl, figures⟩ := found
      rw [← figures] at outcome
      exact ⟨measured, by simp only [List.append_nil], calls, outcome.symm⟩
  · obtain ⟨measured, rfl, calls, failed⟩ := found
    have fails := (later measured).trans (eq_some_of_error failed)
    exact ⟨measured, rfl, calls, (Harness.reduce_of_fault wanted fails).symm⟩

/-- A timing asks for the runs of its dialogue, and its outcome is what their answers come to. -/
theorem measure_yields (asks : run.Yields fun ex r => ex = [exchange r]) (expected : Option Int)
    (work : UInt64) (h : Harness α) :
    (measure run expected work h).Yields fun ex r => ∃ answers, ex = answers.map exchange ∧
      h.Dialogue expected answers ∧ r = h.reduce expected work answers := by
  rw [measure]
  split
  next idle =>
    refine (Act.Yields.throw (P := fun ex r => ex = [] ∧ r = .error .noSamples) ⟨rfl, rfl⟩).bind
      (fun _ silent found => ?_) fun fault silent found => ?_
    · cases found.2
    · obtain ⟨rfl, reason⟩ := found
      cases reason
      exact ⟨[], rfl, by rw [Harness.Dialogue, if_pos idle], by rw [Harness.reduce, if_pos idle]⟩
  next wanted =>
    simp only [Harness.Dialogue, if_neg wanted]
    have early : 0 + h.warmups ≤ h.warmups := by omega
    refine (warmUp_yields asks h expected early).bind (fun _ first found => ?_) fun fault first found => ?_
    · obtain ⟨thrown, rfl, before, passed⟩ := found
      have fine := (eq_none_of_ok passed).1
      refine (measured_yields asks work wanted (before.length_eq fine) fine).mono fun rest r found => ?_
      obtain ⟨measured, rfl, after, outcome⟩ := found
      have late : h.Calls expected (0 + h.warmups) h.runs measured := (Nat.zero_add h.warmups).symm ▸ after
      exact ⟨thrown ++ measured, List.map_append.symm, before.append fine late, outcome⟩
    · -- A run that could not be made ends the timing before any measured one.
      obtain ⟨thrown, rfl, before, failed⟩ := found
      have fails := eq_some_of_error failed
      exact ⟨thrown, rfl, before.weaken fails h.runs, (Harness.reduce_of_fault wanted fails).symm⟩

end CycleCost
