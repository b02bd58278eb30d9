/-
Module: CycleCost.Proofs.Calibration.Overhead
Purpose: Launch overhead is separated from cost. Two machines that build the same and end the same, of which
  one takes `d` nanoseconds longer in each measured run, give records with the same cost: only the overhead and
  the times of the sizes are larger, by as many milliseconds as `d` is. The delay is followed from the single
  run through the timing of a program, the sizes of a template and the fit of its series.
Main exports: Machine.Delayed, measure_delayed, Template.trySize_delayed, Settings.fit_delayed,
  BenchmarkRecord.delayed, Template.launch_overhead_is_separated
-/
import Mathlib
import CycleCost.Calibration.Benchmark
import CycleCost.Proofs.Calibration.Couple
import CycleCost.Proofs.Calibration.Coverage
import CycleCost.Proofs.Measurement.Sample
import CycleCost.Proofs.Regression.Delay

namespace CycleCost

open Act (Couple Abreast)

variable {σ τ K : Type} [ScalarField K]

/-! ### What a delay changes -/

/-- A delay of whole nanoseconds, in milliseconds. -/
def delayMs (d : Int) : K := d / 1000000

/-- An observation of runs that all took `d` longer. -/
def Observation.delayed (d : K) (o : Observation K) : Observation K := { o with timeMs := o.timeMs + d }

/-- A measured size whose runs all took `d` longer. -/
def DataPoint.delayed (d : K) (p : DataPoint K) : DataPoint K := { p with timeMs := p.timeMs + d }

/-- What a size comes to when its measured runs take `d` longer. -/
def Outcome.delayed (d : K) : Outcome K → Outcome K
  | measured repetitions digest o => measured repetitions digest (o.delayed d)
  | skipped repetitions reason => skipped repetitions reason

/-- The record of a benchmark whose measured runs all took `d` longer. -/
def BenchmarkRecord.delayed (d : K) (r : BenchmarkRecord K) : BenchmarkRecord K :=
  { r with overheadMs := r.overheadMs.map (· + d), dataPoints := r.dataPoints.map (DataPoint.delayed d) }

/-! ### Machines of which one is delayed -/

/-- States of two machines on which the same program was built last and was run equally often. -/
def InStep (R : String → Nat → σ → τ → Prop) (s : σ) (t : τ) : Prop := ∃ program runs, R program runs s t

/-- Two machines that build the same and whose runs fail or end the same, call by call. From the run on that
    comes after `warmups` runs of the program built last, the second one takes `d` nanoseconds longer; the times
    of the runs before it may be any. The relation says which program was built last and how often it was
    run. -/
structure Machine.Delayed (warmups : Nat) (d : Int) (R : String → Nat → σ → τ → Prop) (m : Machine σ)
    (m' : Machine τ) : Prop where
  build source : Couple (InStep R) (m.build source) (m'.build source)
    (fun program program' s t => program' = program ∧ R program 0 s t) (InStep R)
  run program limit runs : Couple (R program runs) (m.run program limit) (m'.run program limit)
    (fun r r' s t => (r'.exit = r.exit ∧
        (warmups ≤ runs → (r'.elapsed.nanoseconds : Int) = r.elapsed.nanoseconds + d)) ∧
      R program (runs + 1) s t) (InStep R)
  release program s t : InStep R s t → InStep R (m.release program s).2 (m'.release program t).2

variable {warmups : Nat} {d : Int} {R : String → Nat → σ → τ → Prop} {m : Machine σ} {m' : Machine τ}

/-! ### The timing of one program -/

/-- Whether a run ended as expected only depends on its exit code. -/
theorem checkExit_congr {expected : Option Int} {r r' : Run} (same : r'.exit = r.exit) :
    checkExit expected r' = checkExit expected r := by
  cases expected with
  | none => rfl
  | some code => rw [checkExit, checkExit, same]

/-- The runs that are thrown away only have to be made. -/
theorem warmUp_delayed (h : m.Delayed warmups d R m') (program : String) (limit : Duration) (n runs : Nat) :
    Couple (R program runs) (warmUp (m.run program limit) n) (warmUp (m'.run program limit) n)
      (fun _ _ => R program (runs + n)) (InStep R) := by
  -- The states know how many runs came before, so the count is general in the induction.
  induction n generalizing runs with
  | zero => exact .pure fun s t related => related
  | succ n ih =>
    apply (h.run program limit runs).bind
    intro r r' s t first
    have rest := ih (runs + 1) s t first.2
    rw [Nat.add_right_comm] at rest
    exact rest

section

variable [LinearOrder K] [ExactScalar K]

/-- Nothing is lost when seconds and nanoseconds are put together without rounding. -/
theorem Duration.milliseconds_eq (t : Duration) : (t.milliseconds : K) = t.nanoseconds / 1000000 := by
  have parts := congrArg (Nat.cast (R := K)) (Nat.div_add_mod t.nanoseconds 1000000000)
  rw [Nat.cast_add, Nat.cast_mul] at parts
  rw [milliseconds, ExactScalar.ofNat_eq, ExactScalar.ofNat_eq, ExactScalar.ofNat_eq, ExactScalar.ofNat_eq, ← parts]
  push_cast
  field_simp
  ring

/-- A run that lasts `d` nanoseconds longer reads `d` nanoseconds longer in milliseconds. -/
theorem Duration.milliseconds_delayed {t t' : Duration} (later : (t'.nanoseconds : Int) = t.nanoseconds + d) :
    (t'.milliseconds : K) = t.milliseconds + delayMs d := by
  have cast := congrArg (Int.cast (R := K)) later
  push_cast at cast
  rw [milliseconds_eq, milliseconds_eq, cast, delayMs, add_div]

/-- Every reading of a measured run is larger by the delay. -/
theorem timings_delayed (h : m.Delayed warmups d R m') (program : String) (limit : Duration)
    (expected : Option Int) (n : Nat) {runs : Nat} (measured : warmups ≤ runs) (earlier : List K) :
    Couple (R program runs) (timings (m.run program limit) expected n earlier)
      (timings (m'.run program limit) expected n (earlier.map (· + delayMs d)))
      (fun readings readings' s t => readings' = readings.map (· + delayMs d) ∧ InStep R s t) (InStep R) := by
  -- The readings are collected on the way, so the induction is over every list of earlier ones.
  induction n generalizing runs earlier with
  | zero => exact .pure fun s t related => ⟨rfl, program, runs, related⟩
  | succ n ih =>
    apply (h.run program limit runs).bind
    intro r r' s t first
    obtain ⟨⟨ended, took⟩, related⟩ := first
    have check : checkExit expected r' = (checkExit expected r).map id := by
      rw [checkExit_congr ended]
      cases checkExit expected r <;> rfl
    have readings : r'.elapsed.milliseconds :: earlier.map (· + delayMs d) =
        (r.elapsed.milliseconds :: earlier).map (· + delayMs d) := by
      rw [List.map_cons, Duration.milliseconds_delayed (took measured)]
    rw [readings]
    refine Couple.bind (Couple.ofResult (P := R program (runs + 1)) (Q := fun _ _ => R program (runs + 1))
      check (fun _ _ _ related => related) fun s t related => ⟨program, runs + 1, related⟩)
      (fun _ _ => ?_) s t related
    exact ih (Nat.le_succ_of_le measured) (r.elapsed.milliseconds :: earlier)

/-- A timing of runs that take `d` longer gives an observation that took `d` longer. -/
theorem measure_delayed {harness : Harness K} (h : m.Delayed harness.warmups d R m') (program : String)
    (limit : Duration) (expected : Option Int) (work : UInt64) :
    Couple (R program 0) (measure (m.run program limit) expected work harness)
      (measure (m'.run program limit) expected work harness)
      (fun o o' s t => o' = o.delayed (delayMs d) ∧ InStep R s t) (InStep R) := by
  rw [measure, measure]
  split
  · -- With nothing to measure both fail before the first run.
    exact (Couple.throw (Q := fun _ _ _ _ => False) _ fun s t related => ⟨program, 0, related⟩).bind
      fun _ _ s t never => never.elim
  · apply (warmUp_delayed h program limit harness.warmups 0).bind
    intro _ _
    have warm : harness.warmups ≤ 0 + harness.warmups := Nat.le_of_eq (Nat.zero_add _).symm
    apply (timings_delayed h program limit expected harness.runs warm []).bind
    intro readings readings' s t read
    obtain ⟨rfl, related⟩ := read
    have summary := Sample.summarize_map_add (delayMs d) readings.reverse harness.trimFraction
    rw [List.map_reverse] at summary
    refine Couple.bind (Couple.ofResult (P := InStep R) (Q := fun b c s t => c = b.delayed (delayMs d) ∧ InStep R s t)
      summary (fun _ _ _ related => ⟨rfl, related⟩) fun _ _ related => related) (fun b c => ?_) s t related
    intro s t reduced
    obtain ⟨rfl, related⟩ := reduced
    exact .done ⟨rfl, related⟩

/-! ### The sizes of a template -/

namespace Template

variable {s : Settings K}

/-- A delay of every run moves the reading of a built size by the delay and leaves the machines in step. -/
theorem timeBuilt_delayed (h : m.Delayed s.harness.warmups d R m') (count : UInt64)
    (digest program : String) (work : UInt64) :
    Couple (R program 0) (timeBuilt m s count digest program work) (timeBuilt m' s count digest program work)
      (fun o o' s t => o' = o.delayed (delayMs d) ∧ InStep R s t) (InStep R) := by
  apply (measure_delayed h program s.harness.timeout (some generatedExit) work).observe.bind
  intro timing timing' a b abreast
  cases abreast with
  | done took =>
    obtain ⟨rfl, related⟩ := took
    exact .done ⟨rfl, h.release program a b related⟩
  | failed related => exact .done ⟨rfl, h.release program a b related⟩

/-- Each size comes to the same, `d` later, and leaves the machines in step. -/
theorem trySize_delayed (h : m.Delayed s.harness.warmups d R m') (t : Template) (count : UInt64) :
    Couple (InStep R) (t.trySize m s count) (t.trySize m' s count)
      (fun o o' s t => o' = o.delayed (delayMs d) ∧ InStep R s t) (InStep R) := by
  by_cases admitted : Admitted count
  · obtain ⟨text, spelled, tried⟩ := t.trySize_of_admitted m s admitted
    obtain ⟨text', spelled', tried'⟩ := t.trySize_of_admitted m' s admitted
    obtain rfl : text = text' := Except.ok.inj (spelled.symm.trans spelled')
    rw [tried, tried']
    apply (h.build text).observe.bind
    intro built built' a b abreast
    cases abreast with
    | done same =>
      obtain ⟨rfl, related⟩ := same
      exact timeBuilt_delayed h count _ _ _ a b related
    | @failed fault _ _ related =>
      dsimp only
      by_cases slow : fault.isTimeout
      · rw [if_pos slow, if_pos slow]
        exact .done ⟨rfl, related⟩
      · rw [if_neg slow, if_neg slow]
        exact .failed related
  · rw [t.trySize_of_not_admitted m s admitted, t.trySize_of_not_admitted m' s admitted]
    exact .pure fun a b related => ⟨rfl, related⟩

end Template

end

/-! ### The fit of a delayed series -/

namespace Survey

/-- The observations of delayed outcomes are the delayed observations. -/
theorem observations_delayed (d : K) (outcomes : List (Outcome K)) :
    (ofOutcomes (outcomes.map (Outcome.delayed d))).series.observations =
      (ofOutcomes outcomes).series.observations.map (Observation.delayed d) := by
  have observed : (outcomes.map (Outcome.delayed d)).filterMap Outcome.observation =
      (outcomes.filterMap Outcome.observation).map (Observation.delayed d) := by
    apply filterMap_changed
    intro o
    cases o <;> rfl
  have ordered := Series.observations_ofList_map (f := Observation.delayed d) (fun _ => rfl)
    (outcomes.filterMap Outcome.observation)
  rw [← observed] at ordered
  exact ordered

theorem dataPoints_delayed (d : K) (outcomes : List (Outcome K)) :
    (ofOutcomes (outcomes.map (Outcome.delayed d))).dataPoints =
      (ofOutcomes outcomes).dataPoints.map (DataPoint.delayed d) := by
  apply filterMap_changed
  intro o
  cases o <;> rfl

theorem skippedPoints_delayed (d : K) (outcomes : List (Outcome K)) :
    (ofOutcomes (outcomes.map (Outcome.delayed d))).skippedPoints = (ofOutcomes outcomes).skippedPoints := by
  have same : (outcomes.map (Outcome.delayed d)).filterMap Outcome.skippedPoint =
      (outcomes.filterMap Outcome.skippedPoint).map id := by
    apply filterMap_changed
    intro o
    cases o <;> rfl
  rw [List.map_id] at same
  exact same

end Survey

variable [LinearOrder K] [ExactScalar K]

/-- A series that came `d` later has the same cost, and an overhead that is `d` larger. -/
theorem Settings.fit_delayed {s : Settings K} (closed : s.backend = .closedForm) (d : K)
    {series series' : Series K}
    (later : series'.observations = series.observations.map (Observation.delayed d)) :
    s.fit series' = (s.fit series).map fun c => (c.1.delayed d, c.2) := by
  have distinct : series'.distinctWork = series.distinctWork := by
    rw [Series.distinctWork, Series.distinctWork, later, List.map_map]
    rfl
  have abscissas : series'.abscissas = series.abscissas := by
    rw [Series.abscissas, Series.abscissas, later, List.map_map]
    rfl
  have ordinates : series'.ordinates = series.ordinates.map (· + d) := by
    rw [Series.ordinates, Series.ordinates, later, List.map_map, List.map_map]
    rfl
  have line : s.backend.fitSeries series' = (s.backend.fitSeries series).map (Fit.delayed d) := by
    rw [closed, Regression.Backend.fitSeries, Regression.Backend.fitSeries, abscissas, ordinates]
    exact Regression.closedForm_map_add d _ _
  rw [fit, fit, distinct, line]
  by_cases few : series.distinctWork < s.requiredPoints
  · rw [if_pos few, if_pos few]
    rfl
  · rw [if_neg few, if_neg few]
    cases s.backend.fitSeries series with
    | error fault => rfl
    | ok found =>
      change (Metric.ofSlope found.slope .milliseconds s.frequencyGhz >>= _) =
        (Metric.ofSlope found.slope .milliseconds s.frequencyGhz >>= _).map _
      cases Metric.ofSlope found.slope .milliseconds s.frequencyGhz <;> rfl

/-- The record of sizes that all came `d` later. -/
theorem Survey.record_delayed {s : Settings K} (closed : s.backend = .closedForm) (d : K)
    (outcomes : List (Outcome K)) (title : Title) (work : UInt64) :
    (ofOutcomes (outcomes.map (Outcome.delayed d))).record s title work =
      ((ofOutcomes outcomes).record s title work).map (BenchmarkRecord.delayed d) := by
  rw [record, record, s.fit_delayed closed d (observations_delayed d outcomes), dataPoints_delayed,
    skippedPoints_delayed]
  cases s.fit (ofOutcomes outcomes).series <;> rfl

namespace Template

/-- When one of two machines takes `d` nanoseconds longer in every measured run, a calibration fails on both with
    the same fault or has on both the same record, up to an overhead and times that are larger by as many
    milliseconds as `d` is. -/
theorem launch_overhead_is_separated {s : Settings K} (closed : s.backend = .closedForm)
    (delayed : m.Delayed s.harness.warmups d R m') (t : Template) {a : σ} {b : τ} (start : InStep R a b) :
    ((t.calibrate m' s).run b).1 = ((t.calibrate m s).run a).1.map (BenchmarkRecord.delayed (delayMs d)) ∧
      ∀ record, ((t.calibrate m s).run a).1 = .ok record →
        ∃ overhead, record.overheadMs = some overhead := by
  have sizes : Abreast _ _ (((ascendingCounts s.repetitionCounts).mapM (t.trySize m s)).run a)
      (((ascendingCounts s.repetitionCounts).mapM (t.trySize m' s)).run b) :=
    Couple.mapM (fun count => trySize_delayed delayed t count) _ a b start
  have fitted (outcomes : List (Outcome K)) :=
    Survey.record_delayed closed (delayMs d) outcomes ⟨t.name, t.description⟩ t.instructionsPerIteration
  rw [calibrate, calibrate, Act.outcome_bind, Act.outcome_bind]
  -- Only how the sizes came out matters from here on, not how the machines got there.
  generalize ((ascendingCounts s.repetitionCounts).mapM (t.trySize m s)).run a = p at sizes ⊢
  generalize ((ascendingCounts s.repetitionCounts).mapM (t.trySize m' s)).run b = q at sizes ⊢
  cases sizes with
  | @done outcomes outcomes' _ _ came =>
    obtain ⟨rfl, _⟩ := came
    refine ⟨fitted outcomes, ?_⟩
    intro record done
    exact Survey.overhead_of_record done
  | failed _ =>
    refine ⟨rfl, ?_⟩
    intro record done
    cases done

/-- Runs that take ever longer, after two slow ones. -/
def slowing (runs : Nat) : Duration := ⟨if runs < 2 then 100000000 else runs * 1000000⟩

/-- The same runs, half a millisecond later, after two that are not slow. -/
def slowingLater (runs : Nat) : Duration := ⟨if runs < 2 then 3000000 else runs * 1000000 + 500000⟩

/-- Two paced machines with different first runs, one of which takes half a millisecond longer later on. -/
theorem launch_overhead_is_separated_quick : ∃ record : BenchmarkRecord ℚ,
    ((dependency.calibrate (Machine.paced slowing) quickSettings).run 0).1 = .ok record ∧
    ((dependency.calibrate (Machine.paced slowingLater) quickSettings).run 0).1 =
      .ok (record.delayed (1 / 2)) := by
  let counted (_ : String) (runs s t : Nat) : Prop := s = runs ∧ t = runs
  have delayed : (Machine.paced slowing).Delayed quickSettings.harness.warmups 500000 counted
      (Machine.paced slowingLater) := by
    refine ⟨?build, ?run, ?release⟩
    case build =>
      intro source s t related
      exact .done ⟨rfl, rfl, rfl⟩
    case run =>
      intro program limit runs s t related
      obtain ⟨rfl, rfl⟩ := related
      refine .done ⟨⟨rfl, fun warm => ?_⟩, rfl, rfl⟩
      have measured : ¬ t < 2 := Nat.not_lt.2 warm
      change ((slowingLater t).nanoseconds : Int) = (slowing t).nanoseconds + 500000
      rw [slowing, slowingLater, if_neg measured, if_neg measured, Nat.cast_add]
      rfl
    case release =>
      intro program s t related
      exact related
  obtain ⟨record, done⟩ := exists_paced_record slowing
  have same := (launch_overhead_is_separated rfl delayed dependency ⟨"", 0, rfl, rfl⟩).1
  have half : delayMs 500000 = (1 / 2 : ℚ) := by norm_num [delayMs]
  rw [done, half] at same
  exact ⟨record, done, same⟩

end Template

end CycleCost
