/-
Module: CycleCost.Proofs.Accuracy.Expression
Purpose: A latency may be written as itself, as cycles at some clock, or as a slope in some unit of time. When
  nothing is rounded, the metric that comes of it is the same up to its clock, and no comparison can tell the
  writings apart. So a prediction that repeats a record in other words has no error.
Main exports: Metric.Expression, Metric.Expression.express_eq, Metric.Expresses, Metric.Converted,
  Benchmarked.converted, Accuracy.Prediction.States, Accuracy.error_score_of_states,
  Accuracy.comparison_ignores_expression
-/
import CycleCost.Proofs.Accuracy.Distance
import CycleCost.Proofs.Report.Provenance

namespace CycleCost

variable {K : Type} [LinearOrder K] [ScalarField K] [ExactScalar K]

/-! ### Ways to write a latency -/

namespace Metric

/-- A way to write a latency: as itself, as cycles, or as the slope of a fit. -/
inductive Expression where
  | latency (method : Method)
  | cycles (method : Method)
  | slope (unit : TimeUnit)

namespace Expression

/-- Where a metric of this writing comes from. -/
def method : Expression → Method
  | latency method | cycles method => method
  | slope _ => .linearRegression

/-- The metric of a latency that is written in this way at a clock. As a slope it is the time of one instruction
    in the unit of the fit. -/
def express (latencyNs frequencyGhz : K) : Expression → Result (Metric K)
  | latency method => ofLatency latencyNs frequencyGhz method
  | cycles method => ofCpi (latencyNs * frequencyGhz) frequencyGhz method
  | slope .seconds => ofSlope (latencyNs / (1000000000 : ℕ)) .seconds frequencyGhz
  | slope .milliseconds => ofSlope (latencyNs / (1000000 : ℕ)) .milliseconds frequencyGhz
  | slope .microseconds => ofSlope (latencyNs / (1000 : ℕ)) .microseconds frequencyGhz
  | slope .nanoseconds => ofSlope latencyNs .nanoseconds frequencyGhz

/-- A slope stands for the latency that it comes to in nanoseconds. -/
theorem ofSlope_eq_of_mul {slope latencyNs frequencyGhz : K} {unit : TimeUnit} (running : 0 < frequencyGhz)
    (same : slope * unit.nanos = latencyNs) : ofSlope slope unit frequencyGhz =
      .ok (ofParts latencyNs (latencyNs * frequencyGhz) frequencyGhz .linearRegression) :=
  ofSlope_eq_ok_iff.2 ⟨Scalar.finitePositive_iff.2 running, ExactScalar.finite_eq _, by rw [same]⟩

/-- Every writing gives the metric of the latency itself. -/
theorem express_eq {frequencyGhz : K} (running : 0 < frequencyGhz) (latencyNs : K) (e : Expression) :
    e.express latencyNs frequencyGhz =
      .ok (ofParts latencyNs (latencyNs * frequencyGhz) frequencyGhz e.method) := by
  have clock := Scalar.finitePositive_iff.2 running
  cases e with
  | latency method => exact ofLatency_eq_ok_iff.2 ⟨clock, ExactScalar.finite_eq _, rfl⟩
  | cycles method =>
    refine ofCpi_eq_ok_iff.2 ⟨clock, ExactScalar.finite_eq _, ?_⟩
    rw [mul_div_cancel_right₀ latencyNs running.ne', Expression.method]
  | slope unit =>
    -- Each unit has its own number of nanoseconds, so the four of them are four cases.
    cases unit <;> exact ofSlope_eq_of_mul running (by simp [TimeUnit.nanos])

end Expression

/-- A metric that was made of a latency, in one of these ways and at some clock. -/
def Expresses (m : Metric K) (latencyNs : K) : Prop :=
  ∃ (e : Expression) (frequencyGhz : K), 0 < frequencyGhz ∧ e.express latencyNs frequencyGhz = .ok m

/-- However a metric was expressed, its latency is the one meant. -/
theorem Expresses.latencyNs_eq {m : Metric K} {latencyNs : K} (made : m.Expresses latencyNs) :
    m.latencyNs = latencyNs := by
  obtain ⟨e, frequencyGhz, running, done⟩ := made
  rw [e.express_eq running] at done
  cases done
  rfl

/-- Without a cycle there is no throughput; otherwise the two are reciprocal. -/
theorem exists_throughput {latencyNs cycles frequencyGhz : K} {method : Method} (busy : 0 < cycles) :
    ∃ throughput, (ofParts latencyNs cycles frequencyGhz method).throughput = some throughput ∧
      throughput * cycles = 1 := by
  refine ⟨1 / cycles, ?_, one_div_mul_cancel busy.ne'⟩
  simp [ofParts, busy.ne']

/-- The cycles of a metric are its latency at its own clock, which runs. -/
structure Converted (m : Metric K) : Prop where
  running : 0 < m.frequencyGhz
  cycles : m.cycles = m.latencyNs * m.frequencyGhz

end Metric

/-! ### Records -/

/-- In a measured record latency and cycles differ by the clock alone. -/
theorem Survey.converted_of_record {outcomes : List (Outcome K)} {s : Settings K} {title : Title}
    {work : UInt64} {r : BenchmarkRecord K} (done : (ofOutcomes outcomes).record s title work = .ok r) :
    r.metric.Converted := by
  rw [record] at done
  cases fitted : s.fit (ofOutcomes outcomes).series with
  | error fault =>
    rw [fitted] at done
    cases done
  | ok cost =>
    rcases cost with ⟨line, metric⟩
    obtain ⟨-, -, priced⟩ := Settings.fit_eq_ok_iff.1 fitted
    obtain ⟨clock, -, rfl⟩ := Metric.ofSlope_eq_ok_iff.1 priced
    rw [fitted] at done
    cases done
    exact ⟨Scalar.finitePositive_iff.1 clock, rfl⟩

theorem FixedWorkload.converted_of_record {s : Settings K} {w : FixedWorkload K}
    {timing : Option (CoarseTiming K)} {r : BenchmarkRecord K} (done : w.record s timing = .ok r) :
    r.metric.Converted := by
  rw [record] at done
  cases priced : Estimate.analytical w.expectedCpi s.frequencyGhz timing with
  | error fault =>
    rw [priced] at done
    cases done
  | ok e =>
    have made := Estimate.metric_of_analytical priced
    have running : 0 < s.frequencyGhz := by
      by_contra stopped
      rw [Estimate.analytical, checkFrequency, if_neg (mt Scalar.finitePositive_iff.1 stopped)] at priced
      cases priced
    rw [priced] at done
    cases done
    constructor
    case running =>
      rw [BenchmarkRecord.metric, made]
      exact running
    case cycles =>
      rw [BenchmarkRecord.metric, made]
      exact (div_mul_cancel₀ _ running.ne').symm

/-- The cycles of a record are its latency at its clock, whether it was measured or supplied. -/
theorem Benchmarked.converted {result : Result (BenchmarkRecord K)} (came : Benchmarked result)
    {r : BenchmarkRecord K} (done : result = .ok r) : r.metric.Converted := by
  cases came with
  | template m s t state =>
    obtain ⟨outcomes, recorded⟩ := Act.exists_of_run_bind_ofResult done
    exact Survey.converted_of_record recorded
  | kernel m s k state =>
    obtain ⟨outcomes, recorded⟩ := Act.exists_of_run_bind_ofResult done
    exact Survey.converted_of_record recorded
  | fixed m s w state =>
    obtain ⟨timing, recorded⟩ := Act.exists_of_run_bind_ofResult done
    exact FixedWorkload.converted_of_record recorded
  | refused fault => cases done

namespace Accuracy

/-! ### Predictions -/

/-- A prediction states a latency: as cycles at its clock, or, when it has no cycles, as it is. -/
structure Prediction.States (p : Prediction K) (defaultFrequencyGhz latencyNs : K) : Prop where
  running : 0 < p.clock defaultFrequencyGhz
  latency : p.cpi = some (latencyNs * p.clock defaultFrequencyGhz) ∨
    p.cpi = none ∧ p.latencyNs = some latencyNs

/-- A prediction repeats a record: its cycles at its clock, or its latency at any clock that runs. -/
def Prediction.Repeats (p : Prediction K) (defaultFrequencyGhz : K) (r : BenchmarkRecord K) : Prop :=
  p.cpi = some r.cpi ∧ p.clock defaultFrequencyGhz = r.frequencyGhz ∨
    p.cpi = none ∧ p.latencyNs = some r.latencyNs ∧ 0 < p.clock defaultFrequencyGhz

variable {p q : Prediction K} {defaultFrequencyGhz latencyNs : K}

/-- A prediction that states a latency gives it, whichever of the two it states. -/
theorem Prediction.States.gives (states : p.States defaultFrequencyGhz latencyNs) :
    p.Gives defaultFrequencyGhz latencyNs := by
  have clock := Scalar.finitePositive_iff.2 states.running
  rcases states.latency with cycles | ⟨none, latency⟩
  · have same := mul_div_cancel_right₀ latencyNs states.running.ne'
    have gives := Prediction.Gives.cycles cycles (ExactScalar.finite_eq _) clock
    rwa [same] at gives
  · exact .latency none latency (ExactScalar.finite_eq _) clock

omit [ExactScalar K] in
/-- A prediction copied from a record states the record's latency. -/
theorem Prediction.Repeats.states {r : BenchmarkRecord K} (repeats : p.Repeats defaultFrequencyGhz r)
    (converted : r.metric.Converted) : p.States defaultFrequencyGhz r.latencyNs := by
  rcases repeats with ⟨cycles, clock⟩ | ⟨none, latency, running⟩
  · refine ⟨clock ▸ converted.running, .inl ?_⟩
    rw [cycles, clock]
    exact congrArg some converted.cycles
  · exact ⟨running, .inr ⟨none, latency⟩⟩

/-- Of a prediction that states a latency, the error is that of the latency. -/
theorem error_score_of_states (states : p.States defaultFrequencyGhz latencyNs)
    (real : String → Option (Metric K)) :
    (score real defaultFrequencyGhz p).error = (real p.name).bind fun measured =>
      (relativeError latencyNs measured.latencyNs).toOption := by
  obtain ⟨m, priced, same⟩ := Prediction.exists_metric_of_gives states.gives
  rw [error_score, priced, Except.toOption, Option.bind_some, same]

/-- A positive latency gives the same metric in whichever way it is written, up to the clock. A comparison has
    the same error for all of these metrics, on either side; a prediction has the same error in all writings;
    and one that repeats a record of a report has none. -/
theorem comparison_ignores_expression (positive : 0 < latencyNs) :
    (∀ (e : Metric.Expression) (frequencyGhz : K), 0 < frequencyGhz →
      ∃ m, e.express latencyNs frequencyGhz = .ok m ∧ m.latencyNs = latencyNs ∧
        m.frequencyGhz = frequencyGhz ∧ m.cycles = m.latencyNs * m.frequencyGhz ∧
        ∃ throughput, m.throughput = some throughput ∧ throughput * m.cycles = 1) ∧
    (∀ m n : Metric K, m.Expresses latencyNs → n.Expresses latencyNs → ∀ name other,
      (compare name n other).map (·.error) = (compare name m other).map (·.error) ∧
      (compare name other n).map (·.error) = (compare name other m).map (·.error)) ∧
    (∀ (p q : Prediction K) defaultFrequencyGhz, q.name = p.name → p.States defaultFrequencyGhz latencyNs →
      q.States defaultFrequencyGhz latencyNs → ∀ real front back,
        (evaluate real (front ++ q :: back) defaultFrequencyGhz).map (·.error) =
          (evaluate real (front ++ p :: back) defaultFrequencyGhz).map (·.error)) ∧
    (∀ report, Composed report → ∀ r ∈ report.results, r.latencyNs = latencyNs →
      ∀ (p : Prediction K) defaultFrequencyGhz, p.Repeats defaultFrequencyGhz r →
        ∀ real, real p.name = some r.metric → ∀ (predictions : List (Prediction K)) (i : Nat),
          predictions[i]? = some p →
            ((evaluate real predictions defaultFrequencyGhz)[i]?).map Record.error = some (some 0)) := by
  refine ⟨?made, ?compared, ?predicted, ?repeated⟩
  case made =>
    intro e frequencyGhz running
    exact ⟨_, e.express_eq running latencyNs, rfl, rfl, rfl, Metric.exists_throughput (mul_pos positive running)⟩
  case compared =>
    intro m n first second name other
    have same : n.latencyNs = m.latencyNs := second.latencyNs_eq.trans first.latencyNs_eq.symm
    constructor
    · rw [map_error_compare, map_error_compare, same]
    · rw [map_error_compare, map_error_compare, same]
  case predicted =>
    intro p q defaultFrequencyGhz named first second real front back
    apply map_error_evaluate_congr
    rw [error_score_of_states first, error_score_of_states second, named]
  case repeated =>
    intro report composed r member priced p defaultFrequencyGhz repeats real known predictions i found
    have states := repeats.states ((composed.benchmarked r member).converted rfl)
    rw [getElem?_evaluate, found, Option.map_some, Option.map_some, error_score_of_states states, known,
      Option.bind_some]
    have none : relativeError r.latencyNs r.metric.latencyNs = .ok 0 := by
      rw [BenchmarkRecord.metric, priced, relativeError_eq_ratio positive positive,
        (ratio_eq_one_iff positive positive).2 rfl, sub_self]
    rw [none]
    rfl

/-- A program of 1.4 cycles in each instruction, which are 0.4 ns at the reference clock. -/
def brief : FixedWorkload ℚ := ⟨"brief", "", 340, "bin/brief", 0, 7 / 5⟩

/-- A latency of 0.4 ns: as cycles at 3 GHz, as slopes in milliseconds and in microseconds at 3.5 GHz, and as the
    record of a program that is predicted once in cycles and once by its latency at another clock. -/
theorem comparison_ignores_expression_clocks : ∃ (m n o : Metric ℚ) (r : BenchmarkRecord ℚ),
    Metric.ofCpi (6 / 5) 3 .simulated = .ok m ∧
    Metric.ofSlope (1 / 2500000) .milliseconds (7 / 2) = .ok n ∧
    Metric.ofSlope (1 / 2500) .microseconds (7 / 2) = .ok o ∧
    n.cycles = 7 / 5 ∧ o.cycles = 7 / 5 ∧
    (∀ name other, (compare name n other).map (·.error) = (compare name m other).map (·.error)) ∧
    (∀ name other, (compare name other o).map (·.error) = (compare name other n).map (·.error)) ∧
    ((brief.estimate (Machine.paced fun _ => ⟨5000000⟩) Template.quickSettings).run 0).1 = .ok r ∧
    ((evaluate (fun _ => some r.metric) [⟨"brief", some r.cpi, none, some r.frequencyGhz⟩] 1)[0]?).map
      Record.error = some (some 0) ∧
    ((evaluate (fun _ => some r.metric) [⟨"brief", none, some (2 / 5), none⟩] 1)[0]?).map
      Record.error = some (some 0) := by
  obtain ⟨made, compared, -, repeated⟩ := comparison_ignores_expression (show (0 : ℚ) < 2 / 5 by norm_num)
  obtain ⟨m, first, -⟩ := made (.cycles .simulated) 3 (by norm_num)
  obtain ⟨n, second, latencyN, clockN, cyclesN, -⟩ := made (.slope .milliseconds) (7 / 2) (by norm_num)
  obtain ⟨o, third, latencyO, clockO, cyclesO, -⟩ := made (.slope .microseconds) (7 / 2) (by norm_num)
  have usable : Scalar.finitePositive brief.expectedCpi := by decide +kernel
  have running : Scalar.finitePositive Template.quickSettings.frequencyGhz := by decide +kernel
  obtain ⟨r, supplied, shown⟩ := brief.estimate_supplied (Machine.paced fun _ => ⟨5000000⟩) usable running 0
  have same : r.withoutTiming.latencyNs = (brief.supplied Template.quickSettings).latencyNs := by rw [shown]
  have priced : r.latencyNs = 2 / 5 := same.trans (by decide +kernel)
  have composed := Composed.written ⟨schemaVersion, toolVersion, "quick", 0, "unix:0", none⟩ methodology formula 1
    (Gathered.empty.add "brief" (.fixed (Machine.paced fun _ => ⟨5000000⟩) Template.quickSettings brief 0))
  rw [supplied] at composed
  have judged (p : Prediction ℚ) (repeats : p.Repeats 1 r) :=
    repeated _ composed r (List.mem_singleton_self r) priced p 1 repeats (fun _ => some r.metric) rfl [p] 0 rfl
  have cyclesAtThree : (2 / 5 : ℚ) * 3 = 6 / 5 := by norm_num
  have inMilliseconds : (2 / 5 : ℚ) / (1000000 : ℕ) = 1 / 2500000 := by norm_num
  have inMicroseconds : (2 / 5 : ℚ) / (1000 : ℕ) = 1 / 2500 := by norm_num
  refine ⟨m, n, o, r, ?_, ?_, ?_, ?_, ?_, ?_, ?_, supplied, judged _ (.inl ⟨rfl, rfl⟩),
    judged _ (.inr ⟨rfl, ?_, ?_⟩)⟩
  · rw [← first, Metric.Expression.express, cyclesAtThree]
  · rw [← second, Metric.Expression.express, inMilliseconds]
  · rw [← third, Metric.Expression.express, inMicroseconds]
  · rw [cyclesN, latencyN, clockN]
    norm_num
  · rw [cyclesO, latencyO, clockO]
    norm_num
  · intro name other
    exact (compared m n ⟨_, _, by norm_num, first⟩ ⟨_, _, by norm_num, second⟩ name other).1
  · intro name other
    exact (compared n o ⟨_, _, by norm_num, second⟩ ⟨_, _, by norm_num, third⟩ name other).2
  · rw [priced]
  · exact one_pos

end Accuracy

end CycleCost
