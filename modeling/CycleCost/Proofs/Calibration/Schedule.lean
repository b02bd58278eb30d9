/-
Module: CycleCost.Proofs.Calibration.Schedule
Purpose: The order of the requests of a calibration. They stand in blocks, one for each visit: a build and
  then runs of the built program only, as many as were wanted or up to the first failing one. Two sizes are
  never interleaved.
Main exports: Visit.calls, Visit.map_call_exchanges, Visit.latest_build, Template.calls_in_blocks
-/
import CycleCost.Proofs.Calibration.Route

namespace CycleCost

variable {σ α : Type}

namespace Visit

/-- The requests of a visit. -/
def calls (limit : Duration) (v : Visit) : List Call :=
  .build v.source ::
    match v.built with
    | .ok program => List.replicate v.answers.length (.run program limit)
    | .error _ => []

/-- The exchanges of a visit are the calls it makes, in order. -/
theorem map_call_exchanges (limit : Duration) (v : Visit) :
    (v.exchanges limit).map Exchange.call = v.calls limit := by
  rw [exchanges, calls, List.map_cons]
  cases v.built with
  | error fault => rfl
  | ok program =>
    dsimp only
    rw [List.map_map]
    exact congrArg _ List.map_const'

/-- A run in the requests of one visit is a run of the program that was built there. -/
theorem built_of_run {limit limit' : Duration} {v : Visit} {before after : List Call} {program : String}
    (h : v.calls limit = before ++ .run program limit' :: after) :
    limit' = limit ∧ v.built = .ok program ∧
      ∃ n, before = .build v.source :: List.replicate n (.run program limit) := by
  rw [calls] at h
  rcases List.cons_eq_append_iff.1 h with ⟨_, same⟩ | ⟨runs, rfl, rest⟩
  · cases same
  · split at rest
    next built made =>
      have all : ∀ call ∈ runs ++ .run program limit' :: after, call = .run built limit :=
        fun call member => List.eq_of_mem_replicate (rest ▸ member)
      have same := all (.run program limit') (List.mem_append_right _ List.mem_cons_self)
      obtain ⟨rfl, rfl⟩ : program = built ∧ limit' = limit := by
        cases same
        exact ⟨rfl, rfl⟩
      refine ⟨rfl, made, runs.length, congrArg _ (List.eq_replicate_of_mem fun call member => ?_)⟩
      exact all call (List.mem_append_left _ member)
    next => simp at rest

/-- A run in the requests of visits comes right after the build of its program and earlier runs of it. -/
theorem latest_build {limit limit' : Duration} {visits : List Visit} {before after : List Call}
    {program : String}
    (h : visits.flatMap (·.calls limit) = before ++ .run program limit' :: after) :
    limit' = limit ∧ ∃ v ∈ visits, v.built = .ok program ∧ ∃ earlier n,
      before = earlier ++ .build v.source :: List.replicate n (.run program limit) := by
  induction visits generalizing before with
  | nil => simp at h
  | cons v rest ih =>
    -- The run stands in a later block, or in the first one; it is never the build that opens a block.
    rw [List.flatMap_cons] at h
    rcases List.append_eq_append_iff.1 h with ⟨front, rfl, later⟩ | ⟨back, here, later⟩
    · obtain ⟨same, w, member, made, earlier, n, rfl⟩ := ih later
      exact ⟨same, w, List.mem_cons_of_mem _ member, made, v.calls limit ++ earlier, n,
        (List.append_assoc ..).symm⟩
    · rcases List.cons_eq_append_iff.1 later with ⟨rfl, next⟩ | ⟨runs, rfl, _⟩
      · obtain ⟨_, w, _, _, earlier, n, nothing⟩ := @ih [] next
        simp at nothing
      · obtain ⟨same, made, n, rfl⟩ := built_of_run here
        exact ⟨same, v, List.mem_cons_self, made, [], n, rfl⟩

variable [Scalar α] {s : Settings α} {t : Template} {v : Visit}

/-- A timed size made every run before the measured ones and every measured run. -/
theorem Proper.length_answers (proper : v.Proper s t) {o : Observation α}
    (timed : v.timing s t = .ok o) : v.answers.length = s.harness.warmups + s.harness.runs := by
  rw [timing] at timed
  split at timed
  next program made => exact (proper.dialogue program made).length_eq timed
  next => cases timed

/-- A built size without a timing had nothing to measure, or it stopped at its first failing run. -/
theorem Proper.stopped (proper : v.Proper s t) {program : String} (made : v.built = .ok program)
    {fault : Fault} (untimed : v.timing s t = .error fault) :
    s.harness.runs = 0 ∧ v.answers = [] ∨
      ∃ front last, v.answers = front ++ [last] ∧
        front.length < s.harness.warmups + s.harness.runs ∧
        s.harness.firstFault (some generatedExit) 0 front = none ∧
        s.harness.callFault (some generatedExit) front.length last = some fault := by
  rw [timing, made] at untimed
  exact ((proper.dialogue program made).stopped untimed).imp_left fun nothing => ⟨nothing.1, nothing.2.1⟩

/-- A visited size without a timing is reported as skipped for that reason. -/
theorem mem_skippedPoints {counts : List UInt64} {visits : List Visit} {outcomes : List (Outcome α)}
    (route : Route s t counts visits outcomes none) (member : v ∈ visits) {fault : Fault}
    (untimed : v.timing s t = .error fault) :
    ⟨v.count, fault.message⟩ ∈ (Survey.ofOutcomes outcomes).skippedPoints := by
  refine List.mem_filterMap.2 ⟨v.outcome s t, route.mem_outcomes member, ?_⟩
  rw [outcome, untimed]
  rfl

end Visit

namespace Template

variable [Scalar α]

/-- The requests of a calibration are the blocks of its visits, one behind the other. A block of a measured
    size has all of its runs, and one that is skipped for its timing stops at the first failing run; every
    run is one of the program that was built last. -/
theorem calls_in_blocks (m : Machine σ) (s : Settings α) (t : Template) (state : σ) :
    ∃ visits, t.Tour m s state visits ∧
      ((t.calibrate m.recorded s).run ⟨state, []⟩).2.calls =
        visits.flatMap (·.calls s.harness.timeout) ∧
      (visits.map (·.count)).Pairwise (· < ·) ∧
      (∀ v ∈ visits, ∀ o, v.timing s t = .ok o →
        v.answers.length = s.harness.warmups + s.harness.runs) ∧
      (∀ v ∈ visits, ∀ program, v.built = .ok program → ∀ fault, v.timing s t = .error fault →
        s.harness.runs = 0 ∧ v.answers = [] ∨
          ∃ front last, v.answers = front ++ [last] ∧
            front.length < s.harness.warmups + s.harness.runs ∧
            s.harness.firstFault (some generatedExit) 0 front = none ∧
            s.harness.callFault (some generatedExit) front.length last = some fault) ∧
      (∀ record, ((t.calibrate m s).run state).1 = .ok record →
        record.dataPoints = visits.filterMap (·.dataPoint s t) ∧
        ∀ v ∈ visits, ∀ fault, v.timing s t = .error fault →
          ⟨v.count, fault.message⟩ ∈ record.skippedPoints) ∧
      ∀ before program limit after,
        ((t.calibrate m.recorded s).run ⟨state, []⟩).2.calls =
          before ++ .run program limit :: after →
        limit = s.harness.timeout ∧ ∃ v ∈ visits, v.built = .ok program ∧ ∃ earlier n,
          before = earlier ++ .build v.source :: List.replicate n (.run program s.harness.timeout) := by
  obtain ⟨visits, outcomes, fault, tour, route, ended⟩ := exists_tour m s t state
  have calls : ((t.calibrate m.recorded s).run ⟨state, []⟩).2.calls =
      visits.flatMap (·.calls s.harness.timeout) := by
    rw [calls_calibrate, tour.exchanges, List.map_flatMap]
    simp only [Visit.map_call_exchanges]
  refine ⟨visits, tour, calls, s.pairwise_admittedCounts.sublist tour.counts.sublist,
    fun v member o timed => (tour.proper v member).length_answers timed,
    fun v member program made fault untimed => (tour.proper v member).stopped made untimed, ?_, ?_⟩
  · intro record done
    rw [done] at ended
    cases fault with
    | some reason => cases ended
    | none =>
      obtain ⟨_, measured, skipped⟩ := Survey.points_of_record ended.symm
      rw [measured, skipped]
      exact ⟨route.dataPoints, fun v member fault untimed => Visit.mem_skippedPoints route member untimed⟩
  · intro before program limit after split
    rw [calls] at split
    exact Visit.latest_build split

end Template

end CycleCost
