/-
Module: CycleCost.Proofs.Calibration.Survey
Purpose: What a survey makes of the outcomes of its sizes. Every size is reported once, as measured or as
  skipped; the fit sees the observations as they were made; and only too few sizes or a number that is not
  finite stand in the way of a record.
Main exports: Outcome.repetitions, Survey.perm_repetitions, Survey.filterMap_changed, Settings.costOf,
  Settings.fit_eq, Settings.fit_eq_ok_iff, Settings.fit_ofList, Settings.arithmetic_of_costOf,
  BenchmarkRecord.cost, Survey.map_cost_record, Survey.arithmetic_of_record, Survey.points_of_record,
  Survey.two_le_of_record, BenchmarkRecord.Covers, Survey.covers_of_record
-/
import CycleCost.Calibration.Survey
import CycleCost.Proofs.Regression.Line
import CycleCost.Proofs.Regression.Series

namespace CycleCost

variable {α : Type}

/-- The size that an outcome belongs to. -/
def Outcome.repetitions : Outcome α → UInt64
  | .measured count _ _ => count
  | .skipped count _ => count

namespace Survey

/-! ### Every size is reported once -/

/-- The measured and the skipped sizes are all sizes. -/
theorem perm_repetitions (outcomes : List (Outcome α)) :
    (((ofOutcomes outcomes).dataPoints.map (·.repetitions)) ++
      (ofOutcomes outcomes).skippedPoints.map (·.repetitions)).Perm (outcomes.map Outcome.repetitions) := by
  induction outcomes with
  | nil => exact .nil
  | cons o rest ih =>
    cases o with
    | measured count digest observation => exact ih.cons count
    | skipped count reason => exact List.perm_middle.trans (ih.cons count)

/-- The data points stand at tried counts, in the order of the schedule. -/
theorem sublist_dataPoints (outcomes : List (Outcome α)) :
    ((ofOutcomes outcomes).dataPoints.map (·.repetitions)).Sublist (outcomes.map Outcome.repetitions) := by
  induction outcomes with
  | nil => exact .slnil
  | cons o rest ih =>
    cases o with
    | measured count digest observation => exact ih.cons_cons count
    | skipped count reason => exact ih.cons count

theorem sublist_skippedPoints (outcomes : List (Outcome α)) :
    ((ofOutcomes outcomes).skippedPoints.map (·.repetitions)).Sublist
      (outcomes.map Outcome.repetitions) := by
  induction outcomes with
  | nil => exact .slnil
  | cons o rest ih =>
    cases o with
    | measured count digest observation => exact ih.cons count
    | skipped count reason => exact ih.cons_cons count

/-- A measured size is reported with the work that the fit is given. -/
theorem map_instructions_dataPoints (outcomes : List (Outcome α)) :
    (ofOutcomes outcomes).dataPoints.map (·.instructions) =
      (outcomes.filterMap Outcome.observation).map (·.workUnits) := by
  rw [ofOutcomes, List.map_filterMap, List.map_filterMap]
  apply List.filterMap_congr
  intro o _
  cases o with
  | measured count digest observation => rfl
  | skipped count reason => rfl

/-- A survey holds one data point for each observation. -/
theorem length_dataPoints (outcomes : List (Outcome α)) :
    (ofOutcomes outcomes).dataPoints.length = (ofOutcomes outcomes).series.size := by
  have reported := congrArg List.length (map_instructions_dataPoints outcomes)
  rw [List.length_map, List.length_map] at reported
  rw [reported, Series.size]
  exact (Series.perm_ofList _).length_eq.symm

/-- What each outcome contributes to a survey changes with the outcome, so the whole list changes. -/
theorem filterMap_changed {γ : Type} {change : Outcome α → Outcome α} {f : Outcome α → Option γ}
    {g : γ → γ} (changes : ∀ o, f (change o) = (f o).map g) (outcomes : List (Outcome α)) :
    (outcomes.map change).filterMap f = (outcomes.filterMap f).map g := by
  rw [List.filterMap_map, List.map_filterMap]
  apply List.filterMap_congr
  intro o _
  exact changes o

/-- Different sizes are not both measured and skipped. -/
theorem disjoint_of_pairwise {outcomes : List (Outcome α)}
    (ascending : (outcomes.map Outcome.repetitions).Pairwise (· < ·)) :
    ∀ count ∈ (ofOutcomes outcomes).dataPoints.map (·.repetitions),
      count ∉ (ofOutcomes outcomes).skippedPoints.map (·.repetitions) := by
  intro count measured skipped
  have different : (outcomes.map Outcome.repetitions).Nodup := ascending.imp UInt64.ne_of_lt
  exact (List.nodup_append.1 ((perm_repetitions outcomes).nodup_iff.2 different)).2.2
    count measured count skipped rfl

end Survey

/-- A record accounts for counts when it reports each of them once, as measured or as skipped, both in
    strictly ascending order. -/
structure BenchmarkRecord.Covers (r : BenchmarkRecord α) (counts : List UInt64) : Prop where
  measured : (r.dataPoints.map (·.repetitions)).Pairwise (· < ·)
  skipped : (r.skippedPoints.map (·.repetitions)).Pairwise (· < ·)
  apart : ∀ count ∈ r.dataPoints.map (·.repetitions), count ∉ r.skippedPoints.map (·.repetitions)
  all : ∀ count, count ∈ r.dataPoints.map (·.repetitions) ∨ count ∈ r.skippedPoints.map (·.repetitions) ↔
    count ∈ counts

/-! ### The cost of the observations -/

variable [Scalar α]

namespace Settings

/-- The line through observations and the metric of its slope. -/
def costOf (s : Settings α) (observed : List (Observation α)) : Result (Fit α × Metric α) := do
  let fit ← s.backend.fit (observed.map fun o => Scalar.ofNat o.workUnits.toNat) (observed.map (·.timeMs))
  let metric ← Metric.ofSlope fit.slope .milliseconds s.frequencyGhz
  return (fit, metric)

/-- A fit counts the different sizes first, and has the cost of the observations when they are enough. -/
theorem fit_eq (s : Settings α) (series : Series α) :
    s.fit series =
      if series.distinctWork < s.requiredPoints then
        .error (.tooFewPoints series.distinctWork s.requiredPoints)
      else s.costOf series.observations := by
  rw [fit]
  split
  · rfl
  · rfl

/-- With fewer distinct amounts of work than required the fit is refused, and the fault gives both numbers. -/
theorem fit_of_few {s : Settings α} {series : Series α} (few : series.distinctWork < s.requiredPoints) :
    s.fit series = .error (.tooFewPoints series.distinctWork s.requiredPoints) := by
  rw [fit_eq, if_pos few]

/-- A series has a cost exactly when it has enough different sizes, a line, and a metric for its slope. -/
theorem fit_eq_ok_iff {s : Settings α} {series : Series α} {line : Fit α} {metric : Metric α} :
    s.fit series = .ok (line, metric) ↔ s.requiredPoints ≤ series.distinctWork ∧
      s.backend.fitSeries series = .ok line ∧
        Metric.ofSlope line.slope .milliseconds s.frequencyGhz = .ok metric := by
  by_cases few : series.distinctWork < s.requiredPoints
  · rw [fit_of_few few]
    exact ⟨nofun, fun known => absurd known.1 (Nat.not_le.2 few)⟩
  rw [fit, if_neg few]
  cases found : s.backend.fitSeries series with
  | error fault => exact ⟨nofun, fun known => nomatch known.2.1⟩
  | ok line' =>
    change (Metric.ofSlope line'.slope .milliseconds s.frequencyGhz >>= _) = _ ↔ _
    cases priced : Metric.ofSlope line'.slope .milliseconds s.frequencyGhz with
    | error fault =>
      refine ⟨nofun, fun known => ?_⟩
      cases known.2.1
      rw [priced] at known
      exact nomatch known.2.2
    | ok metric' =>
      constructor
      · intro done
        cases done
        exact ⟨Nat.le_of_not_lt few, rfl, priced⟩
      · intro known
        cases known.2.1
        rw [priced] at known
        cases known.2.2
        rfl

/-- Observations of strictly ascending work are counted one by one and fitted as they are. -/
theorem fit_ofList (s : Settings α) {observed : List (Observation α)}
    (strict : observed.Pairwise fun p q => p.workUnits < q.workUnits) :
    s.fit (Series.ofList observed) =
      if observed.length < s.requiredPoints then .error (.tooFewPoints observed.length s.requiredPoints)
      else s.costOf observed := by
  have kept : (Series.ofList observed).observations = observed :=
    Series.observations_ofList (strict.imp UInt64.le_of_lt)
  have all : (Series.ofList observed).distinctWork = observed.length := by
    rw [Series.distinctWork_of_pairwise (kept.symm ▸ strict), Series.size, kept]
  rw [fit_eq, all, kept]

/-- A cost fails only by arithmetic. -/
theorem arithmetic_of_costOf {s : Settings α} {observed : List (Observation α)} {fault : Fault}
    (failed : s.costOf observed = .error fault) : fault.Arithmetic := by
  rw [costOf] at failed
  cases line : s.backend.fit (observed.map fun o => Scalar.ofNat o.workUnits.toNat)
      (observed.map (·.timeMs)) with
  | error reason =>
    rw [line] at failed
    cases failed
    exact Regression.Backend.arithmetic_of_fit (by rw [List.length_map, List.length_map]) line
  | ok fit =>
    cases slope : Metric.ofSlope fit.slope .milliseconds s.frequencyGhz with
    | error reason =>
      rw [line] at failed
      change (Metric.ofSlope fit.slope .milliseconds s.frequencyGhz >>= _) = _ at failed
      rw [slope] at failed
      cases failed
      exact Metric.arithmetic_of_ofSlope slope
    | ok metric =>
      rw [line] at failed
      change (Metric.ofSlope fit.slope .milliseconds s.frequencyGhz >>= _) = _ at failed
      rw [slope] at failed
      cases failed

/-- A fit fails only by too few sizes or by arithmetic. -/
theorem arithmetic_of_fit {s : Settings α} {series : Series α} {fault : Fault}
    (failed : s.fit series = .error fault) : fault.Arithmetic := by
  rw [fit_eq] at failed
  split at failed
  · cases failed
    trivial
  · exact arithmetic_of_costOf failed

end Settings

/-- What a record shows of its fit and its metric. -/
def BenchmarkRecord.cost (r : BenchmarkRecord α) : Option α × α × Metric α :=
  (r.overheadMs, r.rSquared, r.metric)

namespace Survey

/-- A survey has a record exactly when its series has a cost, and the record shows this cost. -/
theorem map_cost_record (survey : Survey α) (s : Settings α) (title : Title) (work : UInt64) :
    (survey.record s title work).map BenchmarkRecord.cost =
      (s.fit survey.series).map fun c => (some c.1.intercept, c.1.rSquared, c.2) := by
  rw [record]
  cases s.fit survey.series with
  | error fault => rfl
  | ok cost => rfl

/-- A survey has a record exactly when its series has a fit. -/
theorem exists_record_iff {survey : Survey α} {s : Settings α} {title : Title} {work : UInt64} :
    (∃ record, survey.record s title work = .ok record) ↔ ∃ cost, s.fit survey.series = .ok cost := by
  rw [Survey.record]
  cases s.fit survey.series with
  | error fault =>
    constructor
    · rintro ⟨record, done⟩
      cases done
    · rintro ⟨cost, done⟩
      cases done
  | ok cost => exact ⟨fun _ => ⟨cost, rfl⟩, fun _ => ⟨_, rfl⟩⟩

/-- Nothing that happened to a single size keeps a survey from having a record. -/
theorem arithmetic_of_record {survey : Survey α} {s : Settings α} {title : Title} {work : UInt64}
    {fault : Fault} (failed : survey.record s title work = .error fault) : fault.Arithmetic := by
  rw [Survey.record] at failed
  cases cost : s.fit survey.series with
  | error reason =>
    rw [cost] at failed
    cases failed
    exact Settings.arithmetic_of_fit cost
  | ok found =>
    rw [cost] at failed
    cases failed

/-- What a record repeats of its survey. -/
theorem points_of_record {survey : Survey α} {s : Settings α} {title : Title} {work : UInt64}
    {record : BenchmarkRecord α} (done : survey.record s title work = .ok record) :
    record.instructionsPerIteration = work ∧ record.dataPoints = survey.dataPoints ∧
      record.skippedPoints = survey.skippedPoints := by
  rw [Survey.record] at done
  cases cost : s.fit survey.series with
  | error fault =>
    rw [cost] at done
    cases done
  | ok cost' =>
    rw [cost] at done
    cases done
    exact ⟨rfl, rfl, rfl⟩

/-- A record reports as many sizes as a fit needs. -/
theorem requiredPoints_le_of_record {outcomes : List (Outcome α)} {s : Settings α} {title : Title}
    {work : UInt64} {record : BenchmarkRecord α}
    (done : (ofOutcomes outcomes).record s title work = .ok record) :
    s.requiredPoints ≤ record.dataPoints.length := by
  obtain ⟨⟨line, metric⟩, fitted⟩ := exists_record_iff.1 ⟨record, done⟩
  have enough := (Settings.fit_eq_ok_iff.1 fitted).1
  rw [(points_of_record done).2.1, length_dataPoints]
  exact enough.trans (Series.distinctWork_le_size _)

/-- A record reports at least two sizes, however few are asked for. -/
theorem two_le_of_record {outcomes : List (Outcome α)} {s : Settings α} {title : Title} {work : UInt64}
    {record : BenchmarkRecord α} (done : (ofOutcomes outcomes).record s title work = .ok record) :
    2 ≤ record.dataPoints.length :=
  (Nat.le_max_right s.minPoints Regression.minimumDistinct).trans (requiredPoints_le_of_record done)

/-- A record that was made rests on a data point. -/
theorem dataPoints_ne_nil_of_record {outcomes : List (Outcome α)} {s : Settings α} {title : Title}
    {work : UInt64} {record : BenchmarkRecord α}
    (done : (ofOutcomes outcomes).record s title work = .ok record) : record.dataPoints ≠ [] :=
  List.length_pos_iff.1 (Nat.lt_of_lt_of_le Nat.two_pos (two_le_of_record done))

/-- The record of sizes that were tried in ascending order accounts for them. -/
theorem covers_of_record {outcomes : List (Outcome α)} {s : Settings α} {title : Title} {work : UInt64}
    {record : BenchmarkRecord α} (done : (ofOutcomes outcomes).record s title work = .ok record)
    (ascending : (outcomes.map Outcome.repetitions).Pairwise (· < ·)) :
    record.Covers (outcomes.map Outcome.repetitions) := by
  obtain ⟨-, measured, skipped⟩ := points_of_record done
  constructor
  case measured =>
    rw [measured]
    exact ascending.sublist (sublist_dataPoints outcomes)
  case skipped =>
    rw [skipped]
    exact ascending.sublist (sublist_skippedPoints outcomes)
  case apart =>
    rw [measured, skipped]
    exact disjoint_of_pairwise ascending
  case all =>
    intro count
    rw [measured, skipped, ← List.mem_append, (perm_repetitions outcomes).mem_iff]

/-- A record shows the fixed part of the time. -/
theorem overhead_of_record {survey : Survey α} {s : Settings α} {title : Title} {work : UInt64}
    {record : BenchmarkRecord α} (done : survey.record s title work = .ok record) :
    ∃ overhead, record.overheadMs = some overhead := by
  rw [Survey.record] at done
  cases cost : s.fit survey.series with
  | error fault =>
    rw [cost] at done
    cases done
  | ok found =>
    rw [cost] at done
    cases done
    exact ⟨found.1.intercept, rfl⟩

end Survey

end CycleCost
