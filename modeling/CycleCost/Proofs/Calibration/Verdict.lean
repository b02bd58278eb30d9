/-
Module: CycleCost.Proofs.Calibration.Verdict
Purpose: How a calibration can fail, whatever the machine did. A broken build comes first, then too few
  observations, then the arithmetic of the fit; nothing that happens to a single size is ever the fault of
  the benchmark.
Main exports: Template.observed, Template.calibrate_verdict
-/
import CycleCost.Proofs.Calibration.Route

namespace CycleCost

variable {σ α : Type} [Scalar α]

namespace Template

/-- The observations of visits in order: those of the sizes whose timing succeeded. -/
def observed (t : Template) (s : Settings α) (visits : List Visit) : List (Observation α) :=
  visits.filterMap (·.observation s t)

/-- The record of the outcomes of a whole route: too few observations, or the cost of exactly these. -/
theorem record_of_route {s : Settings α} {t : Template} {visits : List Visit}
    {outcomes : List (Outcome α)} {fault : Option Fault}
    (route : Route s t (ascendingCounts s.repetitionCounts) visits outcomes fault) (title : Title) :
    ((Survey.ofOutcomes outcomes).record s title t.instructionsPerIteration).map BenchmarkRecord.cost =
      if (t.observed s visits).length < max s.minPoints 2 then
        .error (.tooFewPoints (t.observed s visits).length (max s.minPoints 2))
      else (s.costOf (t.observed s visits)).map fun c => (some c.1.intercept, c.1.rSquared, c.2) := by
  have series : (Survey.ofOutcomes outcomes).series = Series.ofList (t.observed s visits) :=
    congrArg Series.ofList route.observations
  have strict : (t.observed s visits).Pairwise fun p q => p.workUnits < q.workUnits :=
    route.pairwise_workUnits
  rw [Survey.map_cost_record, series, s.fit_ofList strict, Settings.requiredPoints,
    Regression.minimumDistinct]
  split <;> rfl

/-- What is made of a value leaves its failure alone. -/
theorem map_eq_error {β γ : Type} {r : Result β} {f : β → γ} {fault : Fault} :
    r.map f = .error fault ↔ r = .error fault := by
  cases r with
  | error reason =>
    constructor
    · intro h
      exact congrArg _ (Except.error.inj h)
    · intro h
      exact congrArg _ (Except.error.inj h)
  | ok b => exact ⟨nofun, nofun⟩

/-- A calibration fails exactly with the fault of a broken build, with too few observations, or with what the
    fit of the observations and the metric of its slope fail with. -/
theorem calibrate_verdict (m : Machine σ) (s : Settings α) (t : Template) (state : σ) :
    ∃ visits, t.Tour m s state visits ∧
      (∀ v ∈ visits, ∀ fault, v.breakage = some fault →
        ((t.calibrate m s).run state).1 = .error fault) ∧
      ((∀ v ∈ visits, v.breakage = none) →
        ((t.observed s visits).length < max s.minPoints 2 → ((t.calibrate m s).run state).1 =
          .error (.tooFewPoints (t.observed s visits).length (max s.minPoints 2))) ∧
        (max s.minPoints 2 ≤ (t.observed s visits).length →
          ((t.calibrate m s).run state).1.map BenchmarkRecord.cost =
            (s.costOf (t.observed s visits)).map fun c => (some c.1.intercept, c.1.rSquared, c.2))) ∧
      (∀ fault, ((t.calibrate m s).run state).1 = .error fault →
        (∃ v ∈ visits, v.breakage = some fault) ∨ fault.Arithmetic) ∧
      ∀ count ∈ s.admittedCounts,
        (∃ work, (⟨t, count, s.abi⟩ : Program).totalWork = .ok work) ∧
        ∃ source, (⟨t, count, s.abi⟩ : Program).source = .ok source := by
  obtain ⟨visits, outcomes, fault, tour, route, ended⟩ := exists_tour m s t state
  have record := record_of_route route ⟨t.name, t.description⟩
  refine ⟨visits, tour, ?broken, ?whole, ?faults, ?programs⟩
  case broken =>
    intro v member reason broken
    rw [ended, (route.of_breakage member broken).2]
    rfl
  case whole =>
    intro whole
    obtain rfl := route.eq_none whole
    rw [ended]
    refine ⟨fun few => ?_, fun enough => ?_⟩
    · rw [if_pos few, map_eq_error] at record
      exact record
    · rw [if_neg (Nat.not_lt.2 enough)] at record
      exact record
  case faults =>
    intro reason failed
    rw [ended] at failed
    cases fault with
    | some first =>
      cases failed
      exact .inl route.exists_of_fault
    | none =>
      rw [Option.elim_none] at failed
      rw [map_eq_error.2 failed] at record
      split at record
      · cases record
        exact .inr trivial
      · exact .inr (Settings.arithmetic_of_costOf (map_eq_error.1 record.symm))
  case programs =>
    intro count configured
    have admitted : Admitted count := by simpa using (List.mem_filter.1 configured).2
    exact ⟨⟨_, Program.totalWork_of_admitted admitted⟩, Program.exists_source_of_admitted admitted⟩

end Template

end CycleCost
