/-
Module: CycleCost.Proofs.Report.Provenance
Purpose: Where a cost comes from stays known. A record is measured or supplied, and its flag, its method and
  its overhead say the same about it. Gathering results, writing a report and merging keep the records as
  they are, so in every report that comes about this way the summary counts by method, and a comparison with
  a record carries its flag.
Main exports: BenchmarkRecord.Measured, BenchmarkRecord.Supplied, BenchmarkRecord.Truthful, Benchmarked,
  Gathered, Composed, Composed.benchmarked, Tally.of_truthful, Composed.provenance_is_truthful
-/
import CycleCost.Proofs.Accuracy.Evaluation
import CycleCost.Proofs.Calibration.Isolation
import CycleCost.Report.Calibration

namespace CycleCost

variable {σ α : Type} [Scalar α]

/-! ### Where a record comes from -/

namespace BenchmarkRecord

/-- A record whose cost is the slope of a regression. -/
structure Measured (r : BenchmarkRecord α) : Prop where
  method : r.method = .linearRegression
  calibrated : r.calibrated = true
  overhead : r.overheadMs.isSome
  empirical : r.empiricalCpi = none
  sizes : 2 ≤ r.dataPoints.length
  throughput : r.ipc = none ↔ Scalar.eq r.cpi Scalar.zero

/-- A record whose cost was supplied. -/
structure Supplied (r : BenchmarkRecord α) : Prop where
  method : r.method = .analytical
  calibrated : r.calibrated = false
  overhead : r.overheadMs = none
  rSquared : r.rSquared = suppliedRSquared
  sizes : r.dataPoints = []
  skipped : r.skippedPoints = []
  throughput : r.ipc = none ↔ Scalar.eq r.cpi Scalar.zero

/-- A record whose flag, method and overhead say the same about where its cost comes from, and which has the
    rest that belongs to such a cost. -/
structure Truthful (r : BenchmarkRecord α) : Prop where
  method : r.method = .linearRegression ∨ r.method = .analytical
  calibrated_iff_method : r.calibrated ↔ r.method = .linearRegression
  calibrated_iff_overhead : r.calibrated ↔ r.overheadMs.isSome
  of_calibrated : r.calibrated → r.empiricalCpi = none ∧ 2 ≤ r.dataPoints.length
  of_analytical : r.method = .analytical →
    r.rSquared = suppliedRSquared ∧ r.dataPoints = [] ∧ r.skippedPoints = []
  throughput : r.ipc = none ↔ Scalar.eq r.cpi Scalar.zero

/-- A measured record says that it was measured. -/
theorem Measured.truthful {r : BenchmarkRecord α} (measured : r.Measured) : r.Truthful where
  method := .inl measured.method
  calibrated_iff_method := iff_of_true measured.calibrated measured.method
  calibrated_iff_overhead := iff_of_true measured.calibrated measured.overhead
  of_calibrated _ := ⟨measured.empirical, measured.sizes⟩
  of_analytical supplied := by
    rw [measured.method] at supplied
    cases supplied
  throughput := measured.throughput

theorem Supplied.truthful {r : BenchmarkRecord α} (supplied : r.Supplied) : r.Truthful := by
  have flag : ¬ r.calibrated := Bool.eq_false_iff.1 supplied.calibrated
  constructor
  case method => exact .inr supplied.method
  case calibrated_iff_method =>
    rw [supplied.method]
    exact iff_of_false flag nofun
  case calibrated_iff_overhead =>
    rw [supplied.overhead]
    exact iff_of_false flag nofun
  case of_calibrated =>
    intro calibrated
    exact absurd calibrated flag
  case of_analytical =>
    intro _
    exact ⟨supplied.rSquared, supplied.sizes, supplied.skipped⟩
  case throughput => exact supplied.throughput

end BenchmarkRecord

/-- The throughput of a metric is only missing for zero cycles. -/
theorem Metric.throughput_of_ofParts {latencyNs cycles frequencyGhz : α} {method : Method} {m : Metric α}
    (made : m = ofParts latencyNs cycles frequencyGhz method) :
    m.throughput = none ↔ Scalar.eq m.cycles Scalar.zero := by
  rw [made, ofParts]
  dsimp only
  split
  next zero => exact iff_of_true rfl zero
  next nonzero => exact iff_of_false nofun nonzero

/-- A fitted record is measured. -/
theorem Survey.measured_of_record {outcomes : List (Outcome α)} {s : Settings α} {title : Title}
    {work : UInt64} {r : BenchmarkRecord α} (done : (ofOutcomes outcomes).record s title work = .ok r) :
    r.Measured := by
  have sizes := two_le_of_record done
  rw [record] at done
  cases fitted : s.fit (ofOutcomes outcomes).series with
  | error fault =>
    rw [fitted] at done
    cases done
  | ok cost =>
    rcases cost with ⟨line, metric⟩
    obtain ⟨-, -, priced⟩ := Settings.fit_eq_ok_iff.1 fitted
    obtain ⟨-, -, made⟩ := Metric.ofSlope_eq_ok_iff.1 priced
    have method : metric.method = .linearRegression := by
      rw [← made]
      rfl
    rw [fitted] at done
    cases done
    exact ⟨method, congrArg Method.isCalibrated method, rfl, rfl, sizes,
      Metric.throughput_of_ofParts made.symm⟩

/-- The metric of a supplied cost is made from this cost. -/
theorem Estimate.metric_of_analytical {cpi frequencyGhz : α} {timing : Option (CoarseTiming α)}
    {e : Estimate α} (done : analytical cpi frequencyGhz timing = .ok e) :
    e.metric = .ofParts (cpi / frequencyGhz) cpi frequencyGhz .analytical := by
  by_cases clock : Scalar.finitePositive frequencyGhz
  · by_cases usable : Scalar.finitePositive cpi
    · rw [analytical_of_usable usable clock] at done
      cases done
      rfl
    · rw [analytical, checkFrequency_eq_ok_iff.2 clock, Bool.eq_false_iff.2 usable] at done
      cases done
  · rw [analytical, checkFrequency, if_neg clock] at done
    cases done

/-- The record of a supplied cost is supplied, whatever its timing came to. -/
theorem FixedWorkload.supplied_of_record {s : Settings α} {w : FixedWorkload α}
    {timing : Option (CoarseTiming α)} {r : BenchmarkRecord α} (done : w.record s timing = .ok r) :
    r.Supplied := by
  rw [record] at done
  cases priced : Estimate.analytical w.expectedCpi s.frequencyGhz timing with
  | error fault =>
    rw [priced] at done
    cases done
  | ok e =>
    have made := Estimate.metric_of_analytical priced
    have method : e.metric.method = .analytical := by
      rw [made]
      rfl
    rw [priced] at done
    cases done
    exact ⟨method, rfl, rfl, rfl, rfl, rfl, Metric.throughput_of_ofParts made⟩

/-! ### Results, outcomes and reports -/

/-- What some run of a benchmark comes to, on any machine, with any settings and from any state. A request
    that is refused before its run only has a fault. -/
inductive Benchmarked : Result (BenchmarkRecord α) → Prop where
  | template {σ : Type} (m : Machine σ) (s : Settings α) (t : Template) (state : σ) :
      Benchmarked ((t.calibrate m s).run state).1
  | kernel {σ : Type} (m : Machine σ) (s : Settings α) (k : KernelSpec) (state : σ) :
      Benchmarked ((k.calibrate m s).run state).1
  | fixed {σ : Type} (m : Machine σ) (s : Settings α) (w : FixedWorkload α) (state : σ) :
      Benchmarked ((w.estimate m s).run state).1
  | refused (fault : Fault) : Benchmarked (.error fault)

/-- An outcome into which such results were put one by one, and runs one behind the other. -/
inductive Gathered : SuiteOutcome α → Prop where
  | empty : Gathered .empty
  | add {o : SuiteOutcome α} {result : Result (BenchmarkRecord α)} (name : String) :
      Gathered o → Benchmarked result → Gathered (o.add name result)
  | extend {o other : SuiteOutcome α} : Gathered o → Gathered other → Gathered (o.extend other)

/-- A report that was written from such an outcome, or into which such an outcome or another report was
    merged. -/
inductive Composed : CalibrationReport α → Prop where
  | written {o : SuiteOutcome α} (run : RunInfo) (methodology formula : String) (frequencyGhz : α) :
      Gathered o → Composed ⟨run, methodology, formula, frequencyGhz, o.records, o.tally, o.failures⟩
  | merged {report : CalibrationReport α} {o : SuiteOutcome α} :
      Composed report → Gathered o → Composed (report.merge o.records o.failures)
  | absorbed {report other : CalibrationReport α} :
      Composed report → Composed other → Composed (report.merge other.results other.failures)

namespace Benchmarked

/-- A record is measured or supplied. -/
theorem measured_or_supplied {result : Result (BenchmarkRecord α)} (came : Benchmarked result)
    {r : BenchmarkRecord α} (done : result = .ok r) : r.Measured ∨ r.Supplied := by
  cases came with
  | template m s t state =>
    obtain ⟨outcomes, recorded⟩ := Act.exists_of_run_bind_ofResult done
    exact .inl (Survey.measured_of_record recorded)
  | kernel m s k state =>
    obtain ⟨outcomes, recorded⟩ := Act.exists_of_run_bind_ofResult done
    exact .inl (Survey.measured_of_record recorded)
  | fixed m s w state =>
    obtain ⟨timing, recorded⟩ := Act.exists_of_run_bind_ofResult done
    exact .inr (FixedWorkload.supplied_of_record recorded)
  | refused fault => cases done

/-- A record that came from a benchmark says how it was obtained. -/
theorem truthful {r : BenchmarkRecord α} (came : Benchmarked (.ok r)) : r.Truthful := by
  rcases came.measured_or_supplied rfl with measured | supplied
  · exact measured.truthful
  · exact supplied.truthful

/-- Every request of a suite comes to such a result. -/
theorem of_mem_requests {m : Machine σ} {s : Settings α} {suite : Suite α} {r : Request σ α}
    (member : r ∈ suite.requests m s) (state : σ) : Benchmarked (r.cost.run state).1 := by
  cases suite with
  | templates registry names =>
    rw [Suite.requests, templateRequests] at member
    split at member
    · obtain ⟨t, -, rfl⟩ := List.mem_map.1 member
      exact .template m s t state
    · obtain ⟨name, -, rfl⟩ := List.mem_map.1 member
      dsimp only
      rw [Act.outcome_bind]
      cases registry.lookup name with
      | error fault => exact .refused fault
      | ok t => exact .template m s t state
  | kernels specs =>
    obtain ⟨k, -, rfl⟩ := List.mem_map.1 member
    exact .kernel m s k state
  | fixed manifest =>
    obtain ⟨w, -, rfl⟩ := List.mem_map.1 member
    exact .fixed m s w state

end Benchmarked

namespace Gathered

/-- Every record of an outcome is what a benchmark came to. -/
theorem benchmarked {o : SuiteOutcome α} (gathered : Gathered o) : ∀ r ∈ o.records, Benchmarked (.ok r) := by
  induction gathered with
  | empty => nofun
  | @add o result name _ came ih =>
    cases result with
    | error fault => exact ih
    | ok record =>
      intro r member
      rcases List.mem_append.1 member with old | new
      · exact ih r old
      · obtain rfl := List.mem_singleton.1 new
        exact came
  | extend _ _ ih ih' =>
    intro r member
    rcases List.mem_append.1 member with first | second
    · exact ih r first
    · exact ih' r second

/-- A suite gathers what came from its benchmarks. -/
theorem runSuiteFrom {o : SuiteOutcome α} (gathered : Gathered o) {requests : List (Request σ α)}
    (came : ∀ r ∈ requests, ∀ state, Benchmarked (r.cost.run state).1) (state : σ) :
    Gathered (CycleCost.runSuiteFrom o requests state).1 := by
  induction requests generalizing o state with
  | nil => exact gathered
  | cons r rest ih =>
    obtain ⟨first, others⟩ := List.forall_mem_cons.1 came
    rw [runSuiteFrom_cons]
    exact ih (gathered.add r.name (first state)) others _

/-- The outcome of a suite is gathered from its requests. -/
theorem suite (m : Machine σ) (s : Settings α) (suite : Suite α) (state : σ) :
    Gathered (suite.run m s state).1 := by
  have came : ∀ r ∈ suite.requests m s, ∀ state, Benchmarked (r.cost.run state).1 :=
    fun r member => Benchmarked.of_mem_requests member
  have all := Gathered.empty.runSuiteFrom came state
  cases suite with
  | templates registry names => exact all
  | kernels specs => exact all
  | fixed manifest => exact all

end Gathered

/-! ### Summaries and comparisons -/

/-- Of truthful records, the summary counts those of each method. -/
theorem Tally.of_truthful {records : List (BenchmarkRecord α)} (truthful : ∀ r ∈ records, r.Truthful)
    (failures : List BenchmarkFailure) :
    Tally.of records failures = ⟨records.countP (·.method = .linearRegression),
      records.countP (·.method = .analytical), failures.length⟩ := by
  have flags : (records.filter (·.calibrated)).length = records.countP (·.method = .linearRegression) := by
    rw [← List.countP_eq_length_filter]
    apply List.countP_congr
    intro r member
    rw [(truthful r member).calibrated_iff_method, decide_eq_true_iff]
  have rest : records.countP (fun r => !decide (r.method = .linearRegression)) =
      records.countP (·.method = .analytical) := by
    apply List.countP_congr
    intro r member
    rcases (truthful r member).method with measured | supplied
    · simp [measured]
    · simp [supplied]
  have all : records.length = records.countP (·.method = .linearRegression) +
      records.countP (·.method = .analytical) := by
    rw [← rest]
    simpa using List.length_eq_countP_add_countP fun r : BenchmarkRecord α => r.method = .linearRegression
  rw [Tally.of, flags, all, Nat.add_sub_cancel_left]

/-- The flag of a truthful record follows from its method. -/
theorem BenchmarkRecord.Truthful.isCalibrated_method {r : BenchmarkRecord α} (truthful : r.Truthful) :
    r.method.isCalibrated = r.calibrated := by
  rw [Bool.eq_iff_iff, Accuracy.isCalibrated_iff, truthful.calibrated_iff_method]

namespace Accuracy

variable {r : BenchmarkRecord α}

/-- A judged record has the flag of the record it was judged against. -/
theorem calibrated_of_compare (truthful : r.Truthful) {name : String} {simulated : Metric α}
    {judged : Record α} (done : compare name simulated r.metric = .ok judged) :
    judged.calibrated = r.calibrated := by
  cases distance : relativeError simulated.latencyNs r.metric.latencyNs with
  | error fault =>
    rw [compare_eq_error distance] at done
    cases done
  | ok e =>
    rw [compare_eq_ok distance] at done
    cases done
    exact truthful.isCalibrated_method

/-- Every record of an evaluation has the flag of the record it was judged against. -/
theorem calibrated_of_evaluate (truthful : r.Truthful) {real : String → Option (Metric α)}
    {predictions : List (Prediction α)} {defaultFrequencyGhz : α} {judged : Record α}
    (member : judged ∈ evaluate real predictions defaultFrequencyGhz)
    (known : real judged.name = some r.metric) : judged.calibrated = r.calibrated := by
  obtain ⟨p, -, rfl⟩ := List.mem_map.1 member
  have accounts := accounts_score real defaultFrequencyGhz p
  rw [accounts.name] at known
  rw [Bool.eq_iff_iff, accounts.calibrated, truthful.calibrated_iff_method]
  constructor
  · rintro ⟨measured, same, method⟩
    cases known.symm.trans same
    exact method
  · intro method
    exact ⟨r.metric, known, method⟩

end Accuracy

/-! ### Reports -/

omit [Scalar α] in
/-- A merged report holds no record but those of the report and of the outcome. -/
theorem CalibrationReport.mem_results_merge {report : CalibrationReport α}
    {records : List (BenchmarkRecord α)} {failures : List BenchmarkFailure} {r : BenchmarkRecord α}
    (member : r ∈ (report.merge records failures).results) : r ∈ report.results ∨ r ∈ records := by
  rcases List.mem_append.1 member with kept | new
  · exact .inl (List.mem_filter.1 kept).1
  · exact .inr new

namespace Composed

variable {report : CalibrationReport α}

/-- Every record of a report is what a benchmark came to. -/
theorem benchmarked (composed : Composed report) : ∀ r ∈ report.results, Benchmarked (.ok r) := by
  induction composed with
  | written _ _ _ _ gathered => exact gathered.benchmarked
  | merged _ gathered ih =>
    intro r member
    rcases CalibrationReport.mem_results_merge member with old | new
    · exact ih r old
    · exact gathered.benchmarked r new
  | absorbed _ _ ih ih' =>
    intro r member
    rcases CalibrationReport.mem_results_merge member with old | new
    · exact ih r old
    · exact ih' r new

theorem truthful (composed : Composed report) : ∀ r ∈ report.results, r.Truthful :=
  fun r member => (composed.benchmarked r member).truthful

/-- The summary is counted whenever the entries change. -/
theorem counted (composed : Composed report) :
    report.summary = Tally.of report.results report.failures := by
  cases composed with
  | written _ _ _ _ _ => rfl
  | merged _ _ => rfl
  | absorbed _ _ => rfl

/-- However a report was put together from results, its records are truthful, its summary counts them by
    method, and a prediction that is held against one of them is marked as the record is. -/
theorem provenance_is_truthful (composed : Composed report) :
    (∀ r ∈ report.results, r.Truthful) ∧
    report.summary = ⟨report.results.countP (·.method = .linearRegression),
      report.results.countP (·.method = .analytical), report.failures.length⟩ ∧
    ∀ r ∈ report.results,
      (∀ name simulated judged, Accuracy.compare name simulated r.metric = .ok judged →
        judged.calibrated = r.calibrated) ∧
      ∀ real predictions defaultFrequencyGhz,
        ∀ judged ∈ Accuracy.evaluate real predictions defaultFrequencyGhz,
          real judged.name = some r.metric → judged.calibrated = r.calibrated := by
  refine ⟨composed.truthful, ?summary, ?judged⟩
  case summary =>
    rw [composed.counted]
    exact Tally.of_truthful composed.truthful report.failures
  case judged =>
    intro r member
    have truthful := composed.truthful r member
    constructor
    · intro name simulated judged done
      exact Accuracy.calibrated_of_compare truthful done
    · intro real predictions defaultFrequencyGhz judged member known
      exact Accuracy.calibrated_of_evaluate truthful member known

/-- A program of two cycles in each instruction. -/
def gemm : FixedWorkload ℚ := ⟨"gemm", "", 340, "bin/gemm", 0, 2⟩

/-- A report without entries, into which a measured and a supplied cost are merged. -/
theorem provenance_is_truthful_merged : ∃ report : CalibrationReport ℚ, Composed report ∧
    report.results.map (·.method) = [.linearRegression, .analytical] ∧
    (∀ r ∈ report.results, r.Truthful) ∧ report.summary = ⟨1, 1, 0⟩ := by
  let m := Machine.paced fun _ => ⟨5000000⟩
  let s := Template.quickSettings
  have clock : Scalar.finitePositive s.frequencyGhz := by decide +kernel
  obtain ⟨first, measured⟩ := Template.exists_paced_record fun _ => ⟨5000000⟩
  obtain ⟨second, supplied, -⟩ := FixedWorkload.estimate_supplied (w := gemm) m (by decide) clock 0
  have templates : ((Suite.templates ⟨[.dependency]⟩ []).run m s 0).1 = ⟨[first], []⟩ := by
    have one : (Suite.templates ⟨[.dependency]⟩ []).requests m s =
        [⟨Template.dependency.name, Template.dependency.calibrate m s⟩] := rfl
    rw [Suite.run_eq, one, entriesOf, entriesOf, measured]
    rfl
  have fixed : ((Suite.fixed ⟨[gemm]⟩).run m s 0).1 = ⟨[second], []⟩ := by
    have one : (Suite.fixed ⟨[gemm]⟩).requests m s = [⟨gemm.name, gemm.estimate m s⟩] := rfl
    rw [Suite.run_eq, one, entriesOf, entriesOf, supplied]
    rfl
  have gathered : Gathered (⟨[first, second], []⟩ : SuiteOutcome ℚ) := by
    have both := (Gathered.suite m s (.templates ⟨[.dependency]⟩ []) 0).extend
      (Gathered.suite m s (.fixed ⟨[gemm]⟩) 0)
    rw [templates, fixed] at both
    exact both
  have composed := (Composed.written ⟨schemaVersion, toolVersion, "quick", 0, "unix:0", none⟩ methodology
    formula s.frequencyGhz .empty).merged gathered
  obtain ⟨truthful, summary, -⟩ := provenance_is_truthful composed
  obtain ⟨_, fitted⟩ := Act.exists_of_run_bind_ofResult measured
  obtain ⟨_, priced⟩ := Act.exists_of_run_bind_ofResult supplied
  have regression := (Survey.measured_of_record fitted).method
  have analytical := (FixedWorkload.supplied_of_record priced).method
  refine ⟨_, composed, ?methods, truthful, summary.trans ?counts⟩
  case methods =>
    change [first.method, second.method] = _
    rw [regression, analytical]
  case counts =>
    change Tally.mk ([first, second].countP _) ([first, second].countP _) 0 = _
    simp [regression, analytical]

end Composed

end CycleCost
