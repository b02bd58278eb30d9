/-
Module: CycleCost.Proofs.Calibration.Kernel
Purpose: A calibration of a kernel seen from the machine. Each of its counts is one visit, in ascending order:
  the build, then the count of the program's instructions, then the timing of the program, as far as these
  stages succeed. Nothing that happens to one size ends the calibration. The instructions come from outside,
  so equal ones count once before a fit.
Main exports: Progress, KernelVisit, KernelVisit.exchanges, KernelVisit.timing, KernelVisit.outcome,
  KernelSpec.Tour, KernelSpec.exists_tour, KernelSpec.sizes_are_accounted_for
-/
import CycleCost.Calibration.Rehearsal
import CycleCost.Proofs.Calibration.Coverage
import CycleCost.Proofs.Calibration.Survey
import CycleCost.Proofs.Calibration.Timing

namespace CycleCost

variable {σ α : Type}

/-- How far one size of a kernel came. A stage is reached only when the one before it has succeeded. -/
inductive Progress where
  | unbuilt (fault : Fault)
  | uncounted (program : String) (fault : Fault)
  /-- The program was built and counted, and its runs were answered. -/
  | counted (program : String) (instructions : UInt64) (answers : List (Result Run))

/-- A size of a kernel that went to the machine. -/
structure KernelVisit where
  count : UInt64
  progress : Progress

namespace KernelVisit

/-- What is exchanged in a visit: each stage asks about what the one before it gave. -/
def exchanges (name : String) (limit : Duration) (v : KernelVisit) : List Exchange :=
  match v.progress with
  | .unbuilt fault => [.kernel name v.count (.error fault)]
  | .uncounted program fault => [.kernel name v.count (.ok program), .count program (.error fault)]
  | .counted program instructions answers =>
    .kernel name v.count (.ok program) :: .count program (.ok instructions) ::
      answers.map (.run program limit)

/-- The requests of a visit. -/
def calls (name : String) (limit : Duration) (v : KernelVisit) : List Call :=
  match v.progress with
  | .unbuilt _ => [.kernel name v.count]
  | .uncounted program _ => [.kernel name v.count, .count program]
  | .counted program _ answers =>
    .kernel name v.count :: .count program :: List.replicate answers.length (.run program limit)

/-- The exchanges of a visit are the calls it makes, in order. -/
theorem map_call_exchanges (name : String) (limit : Duration) (v : KernelVisit) :
    (v.exchanges name limit).map Exchange.call = v.calls name limit := by
  rw [exchanges, calls]
  cases v.progress with
  | unbuilt fault => rfl
  | uncounted program fault => rfl
  | counted program instructions answers =>
    dsimp only
    rw [List.map_cons, List.map_cons, List.map_map]
    exact congrArg (fun runs => Call.kernel name v.count :: Call.count program :: runs) List.map_const'

/-- A visit as a calibration makes it: the runs of a counted program are those of a timing. -/
def Proper (s : Settings α) (k : KernelSpec) (v : KernelVisit) : Prop :=
  ∀ program instructions answers, v.progress = .counted program instructions answers →
    s.harness.Dialogue (some k.expectedExit) answers

variable [Scalar α]

/-- The timing of a visit, or why a stage before it failed. -/
def timing (s : Settings α) (k : KernelSpec) (v : KernelVisit) : Result (Observation α) :=
  match v.progress with
  | .unbuilt fault => .error fault
  | .uncounted _ fault => .error fault
  | .counted _ instructions answers =>
    s.harness.reduce (some k.expectedExit) instructions answers

/-- What becomes of a visited size. -/
def outcome (s : Settings α) (k : KernelSpec) (v : KernelVisit) : Outcome α :=
  match v.timing s k with
  | .ok o => .measured v.count none o
  | .error fault => .skipped v.count fault

/-- The observation of a visited size, if its timing succeeded. -/
def observation (s : Settings α) (k : KernelSpec) (v : KernelVisit) : Option (Observation α) :=
  (v.timing s k).toOption

variable {s : Settings α} {k : KernelSpec} {v : KernelVisit}

@[simp] theorem observation_outcome : (v.outcome s k).observation = v.observation s k := by
  rw [outcome, observation]
  cases v.timing s k with
  | ok o => rfl
  | error fault => rfl

@[simp] theorem repetitions_outcome : (v.outcome s k).repetitions = v.count := by
  rw [outcome]
  cases v.timing s k with
  | ok o => rfl
  | error fault => rfl

/-- A timed size was counted, its work is what was counted, and it made every run that was wanted. -/
theorem Proper.of_timing (proper : v.Proper s k) {o : Observation α} (timed : v.timing s k = .ok o) :
    ∃ program answers, v.progress = .counted program o.workUnits answers ∧
      answers.length = s.harness.warmups + s.harness.runs := by
  rw [timing] at timed
  cases came : v.progress with
  | unbuilt fault =>
    rw [came] at timed
    cases timed
  | uncounted program fault =>
    rw [came] at timed
    cases timed
  | counted program instructions answers =>
    rw [came] at timed
    have work : o.workUnits = instructions := Harness.workUnits_of_reduce timed
    exact ⟨program, answers, by rw [work], (proper _ _ _ came).length_eq timed⟩

/-- A counted size without a timing had nothing to measure, or it stopped at its first failing run. -/
theorem Proper.stopped (proper : v.Proper s k) {program : String} {instructions : UInt64}
    {answers : List (Result Run)} (came : v.progress = .counted program instructions answers)
    {fault : Fault} (untimed : v.timing s k = .error fault) :
    s.harness.runs = 0 ∧ answers = [] ∨
      ∃ front last, answers = front ++ [last] ∧
        front.length < s.harness.warmups + s.harness.runs ∧
        s.harness.firstFault (some k.expectedExit) 0 front = none ∧
        s.harness.callFault (some k.expectedExit) front.length last = some fault := by
  rw [timing, came] at untimed
  rcases (proper _ _ _ came).stopped untimed with ⟨idle, nothing, -⟩ | first
  · exact .inl ⟨idle, nothing⟩
  · exact .inr first

/-- A visited size without a timing is reported as skipped for that reason. -/
theorem mem_skippedPoints {visits : List KernelVisit} (member : v ∈ visits) {fault : Fault}
    (untimed : v.timing s k = .error fault) :
    ⟨v.count, fault.message⟩ ∈ (Survey.ofOutcomes (visits.map (·.outcome s k))).skippedPoints := by
  refine List.mem_filterMap.2 ⟨v.outcome s k, List.mem_map_of_mem member, ?_⟩
  rw [outcome, untimed]
  rfl

end KernelVisit

namespace KernelSpec

variable [Scalar α]

/-! ### The visit of one size -/

/-- A size is built, counted and timed, up to the first stage that fails. -/
theorem timeSize_yields (m : Machine σ) (s : Settings α) (k : KernelSpec) (count : UInt64) :
    (k.timeSize m.transcribed s count).Yields fun ex r => ∃ v : KernelVisit, v.count = count ∧
      v.Proper s k ∧ ex = v.exchanges k.name s.harness.timeout ∧ r = v.timing s k := by
  apply (Act.Yields.transcribed (.kernel k.name count) (m.buildKernel k.name count)).bind
  case failed =>
    rintro fault first rfl
    exact ⟨⟨count, .unbuilt fault⟩, rfl, nofun, rfl, rfl⟩
  rintro program first rfl
  apply (Act.Yields.transcribed (.count program) (m.count program)).bind
  case failed =>
    rintro fault next rfl
    exact ⟨⟨count, .uncounted program fault⟩, rfl, nofun, rfl, rfl⟩
  rintro instructions next rfl
  have asks := Act.Yields.transcribed (.run program s.harness.timeout) (m.run program s.harness.timeout)
  apply (measure_yields asks (some k.expectedExit) instructions s.harness).mono
  rintro rest r ⟨answers, rfl, dialogue, rfl⟩
  refine ⟨⟨count, .counted program instructions answers⟩, rfl, ?_, rfl, rfl⟩
  intro program' instructions' answers' same
  cases same
  exact dialogue

/-- Whatever fails at a size, it is a visit with an outcome. -/
theorem trySize_yields (m : Machine σ) (s : Settings α) (k : KernelSpec) (count : UInt64) :
    (k.trySize m.transcribed s count).Yields fun ex r => ∃ v : KernelVisit, v.count = count ∧
      v.Proper s k ∧ ex = v.exchanges k.name s.harness.timeout ∧ r = .ok (v.outcome s k) := by
  apply (timeSize_yields m s k count).observe.bind
  case failed =>
    rintro fault first ⟨_, same, -⟩
    cases same
  rintro timing first ⟨_, same, v, rfl, proper, rfl, rfl⟩
  cases same
  cases timed : v.timing s k with
  | ok o =>
    refine .pure ⟨v, rfl, proper, List.append_nil _, ?_⟩
    rw [KernelVisit.outcome, timed]
  | error fault =>
    refine .pure ⟨v, rfl, proper, List.append_nil _, ?_⟩
    rw [KernelVisit.outcome, timed]

/-! ### The visits of a whole calibration -/

/-- The visits that a calibration makes from a state of a machine. They are all of its exchanges, each of
    them is made properly, and they go through all counts in order. -/
structure Tour (k : KernelSpec) (m : Machine σ) (s : Settings α) (state : σ)
    (visits : List KernelVisit) : Prop where
  exchanges : ((k.calibrate m.transcribed s).run (.start state)).2.exchanges =
    visits.flatMap (·.exchanges k.name s.harness.timeout)
  proper : ∀ v ∈ visits, v.Proper s k
  counts : visits.map (·.count) = k.counts

/-- What a calibration makes of its visits. -/
def surveyed (s : Settings α) (k : KernelSpec) (visits : List KernelVisit) : Survey α :=
  .ofOutcomes (visits.map (·.outcome s k))

/-- Every calibration is a tour, whose result is the record of its outcomes. -/
theorem exists_tour (m : Machine σ) (s : Settings α) (k : KernelSpec) (state : σ) :
    ∃ visits, k.Tour m s state visits ∧ ((k.calibrate m s).run state).1 =
      (k.surveyed s visits).record s ⟨k.name, k.description⟩
        (instructionsPerCall (k.surveyed s visits).dataPoints) := by
  have whole : (k.calibrate m.transcribed s).Yields fun ex r => ∃ visits : List KernelVisit,
      visits.map (·.count) = k.counts ∧ (∀ v ∈ visits, v.Proper s k) ∧
        ex = visits.flatMap (·.exchanges k.name s.harness.timeout) ∧
          r = (k.surveyed s visits).record s ⟨k.name, k.description⟩
            (instructionsPerCall (k.surveyed s visits).dataPoints) := by
    apply (Act.Yields.mapM (trySize_yields m s k) k.counts).bind
    case failed =>
      rintro fault first ⟨visits, -, -, -, same⟩
      cases same
    rintro outcomes first ⟨visits, counts, proper, rfl, same⟩
    cases same
    exact .ofResult ⟨visits, counts, proper, List.append_nil _, rfl⟩
  obtain ⟨visits, counts, proper, exchanged, ended⟩ := whole.exchanges_start state
  have same := (k.calibrate_agree m.transcribed_agree s).outcome_transcribed state
  exact ⟨visits, ⟨exchanged, proper, counts⟩, same.trans ended⟩

/-! ### What a calibration makes of its visits -/

variable {m : Machine σ} {s : Settings α} {k : KernelSpec} {state : σ} {visits : List KernelVisit}

/-- A tour visits its counts in ascending order, none twice. -/
theorem Tour.pairwise_counts (tour : k.Tour m s state visits) :
    (visits.map (·.count)).Pairwise (· < ·) := by
  rw [tour.counts]
  exact pairwise_ascendingCounts _

/-- A tour visits the counts of its kernel, those of the tier where the kernel names none. -/
theorem Tour.mem_counts (tour : k.Tour m s state visits) {count : UInt64} :
    count ∈ visits.map (·.count) ↔ count ∈ k.repetitionCounts.getD k.tier.repetitionCounts := by
  rw [tour.counts]
  exact mem_ascendingCounts

theorem map_repetitions (s : Settings α) (k : KernelSpec) (visits : List KernelVisit) :
    (visits.map (·.outcome s k)).map Outcome.repetitions = visits.map (·.count) := by
  rw [List.map_map]
  apply List.map_congr_left
  intro v _
  exact KernelVisit.repetitions_outcome

/-- The instruction counts of the measured sizes, in the order of the sizes. -/
def measuredWork (s : Settings α) (k : KernelSpec) (visits : List KernelVisit) : List UInt64 :=
  (visits.filterMap (·.observation s k)).map (·.workUnits)

/-- The observations of a survey are those of its visits. -/
theorem observations_surveyed (s : Settings α) (k : KernelSpec) (visits : List KernelVisit) :
    (visits.map (·.outcome s k)).filterMap Outcome.observation = visits.filterMap (·.observation s k) := by
  rw [List.filterMap_map]
  apply List.filterMap_congr
  intro v _
  exact KernelVisit.observation_outcome

/-- The counts of instructions in a survey are the work its visits measured. -/
theorem map_instructions_surveyed (s : Settings α) (k : KernelSpec) (visits : List KernelVisit) :
    (k.surveyed s visits).dataPoints.map (·.instructions) = k.measuredWork s visits := by
  rw [surveyed, Survey.map_instructions_dataPoints, observations_surveyed, measuredWork]

/-- Before a fit, equal instruction counts are one. -/
theorem distinctWork_surveyed (s : Settings α) (k : KernelSpec) (visits : List KernelVisit) :
    (k.surveyed s visits).series.distinctWork = (k.measuredWork s visits).toFinset.card := by
  rw [measuredWork, ← observations_surveyed]
  exact Series.distinctWork_ofList _

/-- With too few different instruction counts there is no record. -/
theorem record_of_few (few : (k.measuredWork s visits).toFinset.card < s.requiredPoints) (title : Title)
    (work : UInt64) : (k.surveyed s visits).record s title work =
      .error (.tooFewPoints (k.measuredWork s visits).toFinset.card s.requiredPoints) := by
  rw [← distinctWork_surveyed] at few ⊢
  rw [Survey.record, Settings.fit_of_few few]
  rfl

end KernelSpec

/-- The figure per call is taken from the last and largest point. -/
theorem instructionsPerCall_concat (smaller : List (DataPoint α)) (p : DataPoint α) :
    instructionsPerCall (smaller ++ [p]) = p.instructions / max p.repetitions 1 := by
  rw [instructionsPerCall, List.getLast?_append_of_ne_nil _ (List.cons_ne_nil p []), List.getLast?_singleton]

/-- The figure for one call comes from the largest size. -/
theorem exists_largest_instructionsPerCall {points : List (DataPoint α)} (present : points ≠ [])
    (ascending : (points.map (·.repetitions)).Pairwise (· < ·)) :
    ∃ p ∈ points, (∀ q ∈ points, q.repetitions ≤ p.repetitions) ∧
      (instructionsPerCall points).toNat = p.instructions.toNat / max 1 p.repetitions.toNat := by
  obtain ⟨smaller, p, rfl⟩ := (List.eq_nil_or_concat' points).resolve_left present
  have last : p ∈ smaller ++ [p] := List.mem_append_right smaller List.mem_cons_self
  refine ⟨p, last, ?largest, ?figure⟩
  case largest =>
    intro q member
    rw [List.map_append, List.pairwise_append] at ascending
    rcases List.mem_append.1 member with before | same
    · have below := ascending.2.2 q.repetitions (List.mem_map_of_mem before)
      exact UInt64.le_of_lt (below p.repetitions List.mem_cons_self)
    · rw [List.mem_singleton.1 same]
      exact UInt64.le_refl p.repetitions
  case figure =>
    rw [instructionsPerCall_concat, UInt64.toNat_div, UInt64.toNat_max, Nat.max_comm]
    rfl

namespace KernelSpec

variable [Scalar α]

/-- A calibration of a kernel visits each of its counts once, in ascending order, and each visit goes through
    its stages up to the first that fails. With fewer different instruction counts than are needed there are
    too few points; besides, only the arithmetic of the fit can fail. A record accounts for every count, as
    measured or as skipped with its reason, and its instructions for one call are those of the largest
    measured size. -/
theorem sizes_are_accounted_for (m : Machine σ) (s : Settings α) (k : KernelSpec) (state : σ) :
    ∃ visits, k.Tour m s state visits ∧
      ((k.calibrate m.recorded s).run ⟨state, []⟩).2.calls =
        visits.flatMap (·.calls k.name s.harness.timeout) ∧
      (visits.map (·.count)).Pairwise (· < ·) ∧
      (∀ count, count ∈ visits.map (·.count) ↔
        count ∈ k.repetitionCounts.getD k.tier.repetitionCounts) ∧
      (∀ v ∈ visits, ∀ o, v.timing s k = .ok o →
        ∃ program answers, v.progress = .counted program o.workUnits answers ∧
          answers.length = s.harness.warmups + s.harness.runs) ∧
      (∀ v ∈ visits, ∀ program instructions answers, v.progress = .counted program instructions answers →
        ∀ fault, v.timing s k = .error fault →
          s.harness.runs = 0 ∧ answers = [] ∨
            ∃ front last, answers = front ++ [last] ∧
              front.length < s.harness.warmups + s.harness.runs ∧
              s.harness.firstFault (some k.expectedExit) 0 front = none ∧
              s.harness.callFault (some k.expectedExit) front.length last = some fault) ∧
      ((k.measuredWork s visits).toFinset.card < max s.minPoints 2 →
        ((k.calibrate m s).run state).1 =
          .error (.tooFewPoints (k.measuredWork s visits).toFinset.card (max s.minPoints 2))) ∧
      (∀ fault, ((k.calibrate m s).run state).1 = .error fault → fault.Arithmetic) ∧
      ∀ record, ((k.calibrate m s).run state).1 = .ok record →
        record.Covers (k.repetitionCounts.getD k.tier.repetitionCounts) ∧
        record.dataPoints.map (·.instructions) = k.measuredWork s visits ∧
        (∀ v ∈ visits, ∀ fault, v.timing s k = .error fault →
          ⟨v.count, fault.message⟩ ∈ record.skippedPoints) ∧
        ∃ p ∈ record.dataPoints, (∀ q ∈ record.dataPoints, q.repetitions ≤ p.repetitions) ∧
          record.instructionsPerIteration.toNat =
            p.instructions.toNat / max 1 p.repetitions.toNat := by
  obtain ⟨visits, tour, ended⟩ := k.exists_tour m s state
  have calls : ((k.calibrate m.recorded s).run ⟨state, []⟩).2.calls =
      visits.flatMap (·.calls k.name s.harness.timeout) := by
    rw [(k.calibrate_agree m.recorded_agree s).calls_recorded state, tour.exchanges, List.map_flatMap]
    simp only [KernelVisit.map_call_exchanges]
  refine ⟨visits, tour, calls, tour.pairwise_counts, fun _ => tour.mem_counts, ?timed, ?stopped, ?few,
    ?faults, ?record⟩
  case timed =>
    intro v member o timed
    exact (tour.proper v member).of_timing timed
  case stopped =>
    intro v member program instructions answers came fault untimed
    exact (tour.proper v member).stopped came untimed
  case few =>
    intro few
    rw [ended]
    exact record_of_few few _ _
  case faults =>
    intro fault failed
    rw [ended] at failed
    exact Survey.arithmetic_of_record failed
  case record =>
    intro record done
    rw [ended] at done
    have covers := Survey.covers_of_record done (by rw [map_repetitions]; exact tour.pairwise_counts)
    obtain ⟨perCall, measured, skipped⟩ := Survey.points_of_record done
    refine ⟨⟨covers.measured, covers.skipped, covers.apart, ?_⟩, ?_, ?_, ?_⟩
    · intro count
      rw [covers.all, map_repetitions, tour.mem_counts]
    · rw [measured, map_instructions_surveyed]
    · intro v member fault untimed
      rw [skipped]
      exact KernelVisit.mem_skippedPoints member untimed
    · rw [perCall, ← measured]
      exact exists_largest_instructionsPerCall (Survey.dataPoints_ne_nil_of_record done) covers.measured

/-! ### Sizes of which one cannot be built -/

/-- A kernel with counts of its own, out of order and one of them repeated. -/
def axpy : KernelSpec := ⟨"axpy", "", .cubic, some [40, 10, 30, 20, 10], 0⟩

/-- A machine that remembers the size it built last, on which the size 20 takes too long to build. -/
def remembering : Machine UInt64 where
  build _ := throw .noSamples
  buildKernel name count := ExceptT.mk fun _ =>
    (if count = 20 then .error (.timedOut name ⟨1⟩) else .ok name, count)
  count _ := ExceptT.mk fun last => (.ok (if last = 10 then 20 else if last = 30 then 40 else 60), last)
  run _ _ := ExceptT.mk fun last => (.ok ⟨some 0, ⟨last.toNat⟩⟩, last)
  release _ := pure ()

theorem counts_axpy : axpy.counts = [10, 20, 30, 40] := by
  apply ascendingCounts_eq (by decide)
  intro count
  simp [axpy]
  tauto

/-- The sizes that were built have a record, in which one call of the largest retires one instruction and a
    half, rounded down. -/
theorem sizes_are_accounted_for_axpy : ∃ record : BenchmarkRecord ℚ,
    ((axpy.calibrate remembering Template.quickSettings).run 0).1 = .ok record ∧
    record.Covers [40, 10, 30, 20, 10] ∧
    record.skippedPoints = [⟨20, (Fault.timedOut "axpy" ⟨1⟩).message⟩] ∧
    record.instructionsPerIteration = 1 := by
  obtain ⟨p, q, r, tried, workP, workQ, workR⟩ : ∃ p q r : Observation ℚ,
      (([10, 20, 30, 40].mapM (axpy.trySize remembering Template.quickSettings)).run 0).1 =
        .ok [.measured 10 none p, .skipped 20 (.timedOut "axpy" ⟨1⟩), .measured 30 none q,
          .measured 40 none r] ∧
      p.workUnits = 20 ∧ q.workUnits = 40 ∧ r.workUnits = 60 :=
    ⟨_, _, _, rfl, rfl, rfl, rfl⟩
  obtain ⟨record, fitted⟩ : ∃ record, (Survey.ofOutcomes [.measured 10 none p,
      .skipped 20 (.timedOut "axpy" ⟨1⟩), .measured 30 none q, .measured 40 none r]).record
        Template.quickSettings ⟨"axpy", ""⟩ (r.workUnits / max 40 1) = .ok record :=
    Survey.exists_record_iff.2 (Template.exists_quick_fit workP workQ workR)
  have done : ((axpy.calibrate remembering Template.quickSettings).run 0).1 = .ok record := by
    rw [calibrate, Act.outcome_bind, counts_axpy, tried]
    exact fitted
  obtain ⟨perCall, -, skipped⟩ := Survey.points_of_record fitted
  obtain ⟨visits, -, -, -, -, -, -, -, -, accounted⟩ :=
    sizes_are_accounted_for remembering Template.quickSettings axpy 0
  obtain ⟨covers, -⟩ := accounted record done
  refine ⟨record, done, covers, skipped, ?_⟩
  rw [perCall, workR]
  rfl

end KernelSpec

end CycleCost
