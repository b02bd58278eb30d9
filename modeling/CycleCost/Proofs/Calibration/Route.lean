/-
Module: CycleCost.Proofs.Calibration.Route
Purpose: What holds of the visits of a whole calibration, by induction on their route: they go through the
  admitted sizes in order, a broken build is the last of them and ends the calibration, and without one the
  outcomes are those of all sizes.
Main exports: Settings.admittedCounts, Visit.observation, Visit.dataPoint, Route.prefix_counts,
  Route.of_breakage, Route.map_count, Route.map_repetitions, Route.observations, Route.dataPoints,
  Route.pairwise_workUnits
-/
import CycleCost.Proofs.Calibration.Survey
import CycleCost.Proofs.Calibration.Visit

namespace CycleCost

variable {α : Type}

/-- The configured counts that make programs, ascending and each once. -/
def Settings.admittedCounts (s : Settings α) : List UInt64 :=
  (ascendingCounts s.repetitionCounts).filter fun count => Admitted count

/-- The counts of a calibration ascend. -/
theorem Settings.pairwise_admittedCounts (s : Settings α) : s.admittedCounts.Pairwise (· < ·) :=
  (pairwise_ascendingCounts _).filter _

variable [Scalar α]

namespace Visit

variable {s : Settings α} {t : Template} {v : Visit}

/-- The observation of a visited size, if its timing succeeded. -/
def observation (s : Settings α) (t : Template) (v : Visit) : Option (Observation α) :=
  (v.timing s t).toOption

/-- A visited size as a record reports it, if its timing succeeded. -/
def dataPoint (s : Settings α) (t : Template) (v : Visit) : Option (DataPoint α) :=
  (v.observation s t).map fun o =>
    ⟨o.workUnits, v.count, o.timeMs, o.deviationMs, some (Digest.hex s.hash v.source)⟩

@[simp] theorem observation_outcome : (v.outcome s t).observation = v.observation s t := by
  rw [outcome, observation]
  cases v.timing s t <;> rfl

@[simp] theorem dataPoint_outcome : (v.outcome s t).dataPoint = v.dataPoint s t := by
  rw [outcome, dataPoint, observation]
  cases v.timing s t <;> rfl

@[simp] theorem repetitions_outcome : (v.outcome s t).repetitions = v.count := by
  rw [outcome]
  cases v.timing s t <;> rfl

/-- Without a program there is no observation. -/
theorem observation_of_breakage {fault : Fault} (broken : v.breakage = some fault) :
    v.observation s t = none := by
  cases made : v.built with
  | ok program =>
    rw [breakage_of_ok made] at broken
    cases broken
  | error reason =>
    rw [observation, timing, made]
    rfl

theorem timing_of_observation {o : Observation α} (seen : v.observation s t = some o) :
    v.timing s t = .ok o := by
  rw [observation] at seen
  cases timed : v.timing s t with
  | error fault =>
    rw [timed] at seen
    cases seen
  | ok found =>
    rw [timed] at seen
    exact congrArg Except.ok (Option.some.inj seen)

/-- The work of an observed size is the work of its program. -/
theorem workUnits_of_observation {o : Observation α} (seen : v.observation s t = some o) :
    o.workUnits = t.instructionsPerIteration * v.count := by
  have timed := timing_of_observation seen
  rw [timing] at timed
  split at timed
  · exact Harness.workUnits_of_reduce timed
  · cases timed

end Visit

namespace Route

variable {s : Settings α} {t : Template} {counts : List UInt64} {visits : List Visit}
  {outcomes : List (Outcome α)} {fault : Option Fault}

theorem proper (route : Route s t counts visits outcomes fault) : ∀ v ∈ visits, v.Proper s t := by
  induction route with
  | done => exact fun _ member => nomatch member
  | refused _ _ ih => exact ih
  | broken proper _ => exact List.forall_mem_singleton.2 proper
  | visited proper _ _ ih => exact List.forall_mem_cons.2 ⟨proper, ih⟩

/-- The visits go through the admitted sizes in order. -/
theorem prefix_counts (route : Route s t counts visits outcomes fault) :
    visits.map (·.count) <+: counts.filter fun count => Admitted count := by
  induction route with
  | done => exact List.prefix_rfl
  | refused unfit _ ih => rwa [List.filter_cons_of_neg (by simpa using unfit)]
  | broken proper _ =>
    rw [List.filter_cons_of_pos (by simpa using proper.admitted), List.map_singleton]
    exact List.prefix_append [_] _
  | visited proper _ _ ih =>
    rw [List.filter_cons_of_pos (by simpa using proper.admitted), List.map_cons]
    exact (List.prefix_cons_inj _).2 ih

/-- A broken build ends the calibration. -/
theorem of_breakage (route : Route s t counts visits outcomes fault) {v : Visit} (member : v ∈ visits)
    {reason : Fault} (broken : v.breakage = some reason) :
    visits.getLast? = some v ∧ fault = some reason := by
  induction route with
  | done => cases member
  | refused _ _ ih => exact ih member
  | broken proper reason' =>
    obtain rfl := List.mem_singleton.1 member
    exact ⟨rfl, reason'.symm.trans broken⟩
  | visited proper whole later ih =>
    rcases List.mem_cons.1 member with rfl | member
    · rw [whole] at broken
      cases broken
    · obtain ⟨last, ended⟩ := ih member
      exact ⟨by rw [List.getLast?_cons, last]; rfl, ended⟩

/-- Nothing but a broken build ends a calibration early. -/
theorem exists_of_fault {reason : Fault} (route : Route s t counts visits outcomes (some reason)) :
    ∃ v ∈ visits, v.breakage = some reason := by
  generalize early : some reason = fault at route
  induction route with
  | done => cases early
  | refused _ _ ih => exact ih early
  | @broken v _ _ proper broken => exact ⟨v, List.mem_singleton_self v, early ▸ broken⟩
  | visited _ _ _ ih =>
    obtain ⟨v, member, broken⟩ := ih early
    exact ⟨v, List.mem_cons_of_mem _ member, broken⟩

/-- Without a broken build every admitted size is visited. -/
theorem map_count (route : Route s t counts visits outcomes none) :
    visits.map (·.count) = counts.filter fun count => Admitted count := by
  generalize whole : none = fault at route
  induction route with
  | done => rfl
  | refused unfit _ ih => rw [List.filter_cons_of_neg (by simpa using unfit), ih whole]
  | broken _ _ => cases whole
  | visited proper _ _ ih =>
    rw [List.filter_cons_of_pos (by simpa using proper.admitted), List.map_cons, ih whole]

/-- Without a broken build every size has an outcome. -/
theorem map_repetitions (route : Route s t counts visits outcomes none) :
    outcomes.map Outcome.repetitions = counts := by
  generalize whole : none = fault at route
  induction route with
  | done => rfl
  | refused _ _ ih => exact congrArg (_ :: ·) (ih whole)
  | broken _ _ => cases whole
  | visited _ _ _ ih => rw [List.map_cons, Visit.repetitions_outcome, ih whole]

/-- The observations of the outcomes are those of the visits. -/
theorem observations (route : Route s t counts visits outcomes fault) :
    outcomes.filterMap Outcome.observation = visits.filterMap (·.observation s t) := by
  induction route with
  | done => rfl
  | refused _ _ ih => exact ih
  | broken _ broken => rw [List.filterMap_cons_none (Visit.observation_of_breakage broken)]; rfl
  | visited _ _ _ ih => rw [List.filterMap_cons, List.filterMap_cons, Visit.observation_outcome, ih]

/-- The reported sizes of the outcomes are those of the visits. -/
theorem dataPoints (route : Route s t counts visits outcomes fault) :
    (Survey.ofOutcomes outcomes).dataPoints = visits.filterMap (·.dataPoint s t) := by
  rw [Survey.ofOutcomes]
  dsimp only
  induction route with
  | done => rfl
  | refused _ _ ih => exact ih
  | broken _ broken =>
    rw [List.filterMap_cons_none]
    · rfl
    · rw [Visit.dataPoint, Visit.observation_of_breakage broken]
      rfl
  | visited _ _ _ ih => rw [List.filterMap_cons, List.filterMap_cons, Visit.dataPoint_outcome, ih]

/-- Every visited size has its outcome. -/
theorem mem_outcomes (route : Route s t counts visits outcomes none) {v : Visit} (member : v ∈ visits) :
    v.outcome s t ∈ outcomes := by
  generalize whole : none = fault at route
  induction route with
  | done => cases member
  | refused _ _ ih => exact List.mem_cons_of_mem _ (ih member whole)
  | broken _ _ => cases whole
  | visited _ _ _ ih =>
    rcases List.mem_cons.1 member with rfl | member
    · exact List.mem_cons_self
    · exact List.mem_cons_of_mem _ (ih member whole)

/-- The observations come in strictly ascending order of their work. -/
theorem pairwise_workUnits (route : Route s t (ascendingCounts s.repetitionCounts) visits outcomes fault) :
    (visits.filterMap (·.observation s t)).Pairwise fun p q => p.workUnits < q.workUnits := by
  have counts : visits.Pairwise fun v w => v.count < w.count :=
    List.pairwise_map.1 (s.pairwise_admittedCounts.sublist route.prefix_counts.sublist)
  refine List.pairwise_filterMap.2 (counts.imp_of_mem fun {v w} memberV memberW below p seenP q seenQ => ?_)
  have smaller : v.count.toNat < w.count.toNat := UInt64.lt_iff_toNat_lt.1 below
  rw [Visit.workUnits_of_observation seenP, Visit.workUnits_of_observation seenQ,
    UInt64.lt_iff_toNat_lt, t.toNat_work (route.proper v memberV).admitted,
    t.toNat_work (route.proper w memberW).admitted]
  exact Nat.mul_lt_mul_of_pos_left smaller t.instructionsPerIteration_pos

/-- A calibration without a broken build has no fault. -/
theorem eq_none (route : Route s t counts visits outcomes fault)
    (whole : ∀ v ∈ visits, v.breakage = none) : fault = none := by
  cases fault with
  | none => rfl
  | some reason =>
    obtain ⟨v, member, broken⟩ := route.exists_of_fault
    rw [whole v member] at broken
    cases broken

end Route

/-! ### The tour of a calibration -/

namespace Template

variable {σ : Type}

/-- The visits that a calibration makes from a state of a machine. They are all of its exchanges, each of
    them is made properly, they go through the admitted counts, a broken build is the last of them, and
    without one they go through all admitted counts. -/
structure Tour (t : Template) (m : Machine σ) (s : Settings α) (state : σ)
    (visits : List Visit) : Prop where
  exchanges : ((t.calibrate m.transcribed s).run (.start state)).2.exchanges =
    visits.flatMap (·.exchanges s.harness.timeout)
  proper : ∀ v ∈ visits, v.Proper s t
  counts : visits.map (·.count) <+: s.admittedCounts
  last : ∀ v ∈ visits, ∀ fault, v.breakage = some fault → visits.getLast? = some v
  complete : (∀ v ∈ visits, v.breakage = none) → visits.map (·.count) = s.admittedCounts

/-- Every calibration is a tour, whose result is the fault of the broken build or else the record of the
    outcomes. -/
theorem exists_tour (m : Machine σ) (s : Settings α) (t : Template) (state : σ) :
    ∃ visits outcomes fault, t.Tour m s state visits ∧
      Route s t (ascendingCounts s.repetitionCounts) visits outcomes fault ∧
      ((t.calibrate m s).run state).1 =
        fault.elim ((Survey.ofOutcomes outcomes).record s ⟨t.name, t.description⟩
          t.instructionsPerIteration) .error := by
  obtain ⟨visits, outcomes, fault, exchanged, route, ended⟩ :=
    (calibrate_yields m s t).exchanges_start state
  refine ⟨visits, outcomes, fault, ?_, route, (t.calibrate_transcribed m s state).trans ended⟩
  exact
    { exchanges := exchanged
      proper := route.proper
      counts := route.prefix_counts
      last := fun v member reason broken => (route.of_breakage member broken).1
      complete := fun whole => by
        obtain rfl := route.eq_none whole
        exact route.map_count }

end Template

end CycleCost
