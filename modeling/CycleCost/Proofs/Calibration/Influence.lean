/-
Module: CycleCost.Proofs.Calibration.Influence
Purpose: What the skipped sizes of a template cannot do. Order and multiplicity of the configured counts are
  forgotten before anything is built. On a steady machine, whose answers depend on the request alone, each
  size comes to the same by itself as among others; the sizes that are skipped can then be left out of the
  settings, and only the list of skipped sizes changes.
Main exports: ascendingCounts_congr, ascendingCounts_filter, Machine.Steady, Template.trySize_steady,
  Act.run_mapM_steady, Template.Unbroken, Template.skips, Template.skipped_sizes_have_no_influence
-/
import CycleCost.Proofs.Calibration.Coverage

namespace CycleCost

variable {σ α β γ : Type}

/-! ### Configured counts as a set -/

/-- The schedule depends on the set of counts asked for. -/
theorem ascendingCounts_congr {counts others : List UInt64}
    (same : ∀ count, count ∈ counts ↔ count ∈ others) : ascendingCounts counts = ascendingCounts others := by
  apply ascendingCounts_eq (pairwise_ascendingCounts others)
  intro count
  rw [mem_ascendingCounts, same]

/-- Counts may be dropped before or after they are put in order. -/
theorem ascendingCounts_filter (keeps : UInt64 → Bool) (counts : List UInt64) :
    ascendingCounts (counts.filter keeps) = (ascendingCounts counts).filter keeps := by
  apply ascendingCounts_eq ((pairwise_ascendingCounts counts).filter _)
  intro count
  rw [List.mem_filter, List.mem_filter, mem_ascendingCounts]

/-! ### Steady machines -/

/-- A machine whose answers to builds and runs depend on the request alone. -/
structure Machine.Steady (m : Machine σ) : Prop where
  build source a b : ((m.build source).run a).1 = ((m.build source).run b).1
  run program limit a b : ((m.run program limit).run a).1 = ((m.run program limit).run b).1

/-- A machine without memory answers the same again. -/
theorem Machine.Memoryless.steady {m : Machine σ} (memoryless : m.Memoryless) : m.Steady :=
  ⟨memoryless.build, memoryless.run⟩

/-- Steps whose outcomes do not depend on the state have together the outcomes that they have alone. -/
theorem Act.run_mapM_steady {f : β → Act σ γ} (steady : ∀ d a b, ((f d).run a).1 = ((f d).run b).1)
    (list : List β) (start state : σ) :
    ((list.mapM f).run start).1 = list.mapM fun d => ((f d).run state).1 := by
  induction list generalizing start with
  | nil => rfl
  | cons d rest ih =>
    rw [List.mapM_cons, List.mapM_cons, Act.outcome_bind, ← steady d start state]
    congr 1
    funext c
    rw [Act.outcome_bind, ih]
    rfl

/-! ### Sizes that were tried -/

/-- Whether a size was given up. -/
def Outcome.isSkipped : Outcome α → Bool
  | measured _ _ _ => false
  | skipped _ _ => true

/-- Whether a size that was tried was given up. -/
def givenUp : Result (Outcome α) → Bool
  | .ok o => o.isSkipped
  | .error _ => false

/-- Sizes beside what they came to: none of them broke, and each outcome is that of its size. -/
abbrev Tried (tries : UInt64 → Result (Outcome α)) (counts : List UInt64) (outcomes : List (Outcome α)) :
    Prop :=
  List.Forall₂ (fun count o => tries count = .ok o ∧ o.repetitions = count) counts outcomes

namespace Tried

variable {tries : UInt64 → Result (Outcome α)} {counts : List UInt64} {outcomes : List (Outcome α)}

theorem exists_of_forall (whole : ∀ count ∈ counts, ∃ o, tries count = .ok o ∧ o.repetitions = count) :
    ∃ outcomes, Tried tries counts outcomes := by
  induction counts with
  | nil => exact ⟨[], .nil⟩
  | cons count rest ih =>
    obtain ⟨⟨o, first⟩, others⟩ := List.forall_mem_cons.1 whole
    obtain ⟨outcomes, later⟩ := ih others
    exact ⟨o :: outcomes, .cons first later⟩

theorem mapM_eq (tried : Tried tries counts outcomes) : counts.mapM tries = .ok outcomes := by
  induction tried with
  | nil => rfl
  | cons first _ ih =>
    rw [List.mapM_cons, first.1, ih]
    rfl

/-- A rule on which sizes were given up keeps the sizes and the outcomes alike. -/
theorem filter (tried : Tried tries counts outcomes) (keeps : Bool → Bool) :
    Tried tries (counts.filter fun count => keeps (givenUp (tries count)))
      (outcomes.filter fun o => keeps o.isSkipped) := by
  induction tried with
  | nil => exact .nil
  | @cons count o rest others first later ih =>
    have same : givenUp (tries count) = o.isSkipped := by rw [first.1, givenUp]
    rw [List.filter_cons, List.filter_cons, same]
    by_cases kept : keeps o.isSkipped
    · rw [if_pos kept, if_pos kept]
      exact .cons first ih
    · rw [if_neg kept, if_neg kept]
      exact ih

theorem map_repetitions (tried : Tried tries counts outcomes) :
    outcomes.map Outcome.repetitions = counts := by
  induction tried with
  | nil => rfl
  | cons first _ ih => rw [List.map_cons, first.2, ih]

end Tried

/-! ### Surveys without skipped sizes -/

namespace Survey

theorem filterMap_measured {δ : Type} {f : Outcome α → Option δ}
    (silent : ∀ count reason, f (.skipped count reason) = none) (outcomes : List (Outcome α)) :
    (outcomes.filter (!·.isSkipped)).filterMap f = outcomes.filterMap f := by
  rw [List.filterMap_filter]
  apply List.filterMap_congr
  intro o _
  cases o with
  | measured count digest observation => rfl
  | skipped count reason => exact (silent count reason).symm

/-- Without its skipped outcomes a survey only loses the list of skipped sizes. -/
theorem ofOutcomes_measured (outcomes : List (Outcome α)) :
    ofOutcomes (outcomes.filter (!·.isSkipped)) = { ofOutcomes outcomes with skippedPoints := [] } := by
  have dropped : (outcomes.filter (!·.isSkipped)).filterMap Outcome.skippedPoint = [] := by
    rw [List.filterMap_eq_nil_iff]
    intro o member
    have kept := (List.mem_filter.1 member).2
    cases o with
    | measured count digest observation => rfl
    | skipped count reason => cases kept
  rw [ofOutcomes, ofOutcomes, filterMap_measured (fun _ _ => rfl), filterMap_measured (fun _ _ => rfl),
    dropped]

theorem map_repetitions_skippedPoints (outcomes : List (Outcome α)) :
    (ofOutcomes outcomes).skippedPoints.map (·.repetitions) =
      (outcomes.filter (·.isSkipped)).map Outcome.repetitions := by
  rw [ofOutcomes]
  induction outcomes with
  | nil => rfl
  | cons o rest ih =>
    cases o with
    | measured count digest observation => exact ih
    | skipped count reason => exact congrArg (count :: ·) ih

end Survey

/-- A record that reports no skipped sizes. -/
def BenchmarkRecord.withoutSkipped (r : BenchmarkRecord α) : BenchmarkRecord α :=
  { r with skippedPoints := [] }

variable [Scalar α]

/-- The fit does not look at the skipped sizes. -/
theorem Survey.record_withoutSkipped (survey : Survey α) (s : Settings α) (title : Title) (work : UInt64) :
    Survey.record { survey with skippedPoints := [] } s title work =
      (survey.record s title work).map BenchmarkRecord.withoutSkipped := by
  rw [record, record]
  cases s.fit survey.series with
  | error fault => rfl
  | ok cost => rfl

namespace Template

variable {m : Machine σ} {s : Settings α} {t : Template}

/-- On a steady machine the outcome of a size does not depend on what ran before it. -/
theorem trySize_steady (steady : m.Steady) (s : Settings α) (t : Template) (count : UInt64) (a b : σ) :
    ((t.trySize m s count).run a).1 = ((t.trySize m s count).run b).1 := by
  -- A template asks for builds and runs only, so the other answers may be anything.
  let silent : Machine σ :=
    { m with buildKernel := fun _ _ => throw .noSamples, count := fun _ => throw .noSamples }
  have agree : silent.Agree (fun _ _ => True) silent :=
    { build := fun source a b _ => ⟨steady.build source a b, trivial⟩
      buildKernel := fun _ _ _ _ _ => ⟨rfl, trivial⟩
      count := fun _ _ _ _ => ⟨rfl, trivial⟩
      run := fun program limit a b _ => ⟨steady.run program limit a b, trivial⟩
      release := fun _ _ _ _ => trivial }
  exact (t.trySize_agree agree s count a b trivial).1

/-- Of no admitted size that is configured does the build fail for another reason than time. -/
def Unbroken (m : Machine σ) (s : Settings α) (t : Template) (state : σ) : Prop :=
  ∀ count ∈ s.repetitionCounts, Admitted count →
    ∀ source, (⟨t, count, s.abi⟩ : Program).source = .ok source →
      ∀ fault, ((m.build source).run state).1 = .error fault → fault.isTimeout

/-- A size that was built has an outcome, whatever its runs do. -/
theorem exists_outcome_of_built (m : Machine σ) (s : Settings α) (count : UInt64)
    (digest program : String) (work : UInt64) (state : σ) :
    ∃ o, ((timeBuilt m s count digest program work).run state).1 = .ok o ∧ o.repetitions = count := by
  rw [timeBuilt, Act.run_observe_bind]
  cases ((timeProgram m s.harness program generatedExit work).run state).1 with
  | ok observation => exact ⟨.measured count (some digest) observation, rfl, rfl⟩
  | error fault => exact ⟨.skipped count fault, rfl, rfl⟩

/-- Where nothing breaks, every configured size is measured or skipped. -/
theorem Unbroken.exists_outcome {state : σ} (whole : t.Unbroken m s state) {count : UInt64}
    (configured : count ∈ s.repetitionCounts) :
    ∃ o, ((t.trySize m s count).run state).1 = .ok o ∧ o.repetitions = count := by
  by_cases admitted : Admitted count
  · obtain ⟨text, spelled, tried⟩ := t.trySize_of_admitted m s admitted
    have slow := whole count configured admitted text spelled
    rw [tried, Act.run_observe_bind]
    cases built : ((m.build text).run state).1 with
    | ok program => exact exists_outcome_of_built m s count _ program _ _
    | error fault =>
      dsimp only
      rw [if_pos (slow fault built)]
      exact ⟨.skipped count fault, rfl, rfl⟩
  · rw [t.trySize_of_not_admitted m s admitted]
    exact ⟨.skipped count (refusal count), rfl, rfl⟩

/-- On a steady machine a calibration is the record of its sizes, each tried by itself. -/
theorem calibrate_steady (steady : m.Steady) (s : Settings α) (t : Template) (start state : σ) :
    ((t.calibrate m s).run start).1 =
      (ascendingCounts s.repetitionCounts).mapM (fun count => ((t.trySize m s count).run state).1) >>=
        fun outcomes => (Survey.ofOutcomes outcomes).record s ⟨t.name, t.description⟩
          t.instructionsPerIteration := by
  rw [calibrate, Act.outcome_bind, Act.run_mapM_steady (trySize_steady steady s t) _ start state]
  rfl

/-- Whether a size ends up skipped when it is tried from a state. -/
def skips (m : Machine σ) (s : Settings α) (t : Template) (state : σ) (count : UInt64) : Bool :=
  givenUp ((t.trySize m s count).run state).1

/-- Order and multiplicity of the configured counts do not matter. On a steady machine on which no build
    breaks, leaving out the sizes that end up skipped changes nothing but the list of skipped sizes. -/
theorem skipped_sizes_have_no_influence (m : Machine σ) (s : Settings α) (t : Template) :
    (∀ counts others, (∀ count, count ∈ counts ↔ count ∈ others) →
      t.calibrate m { s with repetitionCounts := counts } =
        t.calibrate m { s with repetitionCounts := others }) ∧
    (m.Steady → ∀ state, t.Unbroken m s state →
      (∀ start, ((t.calibrate m { s with
          repetitionCounts := s.repetitionCounts.filter fun count => !t.skips m s state count }).run
            start).1 = ((t.calibrate m s).run state).1.map BenchmarkRecord.withoutSkipped) ∧
      ∀ record, ((t.calibrate m s).run state).1 = .ok record →
        record.skippedPoints.map (·.repetitions) =
          (ascendingCounts s.repetitionCounts).filter fun count => t.skips m s state count) := by
  refine ⟨?counts, ?skipped⟩
  case counts =>
    intro counts others same
    have ascending := ascendingCounts_congr same
    rw [calibrate, calibrate, ascending]
    rfl
  case skipped =>
    intro steady state whole
    let tries := fun count => ((t.trySize m s count).run state).1
    have all : ∀ count ∈ ascendingCounts s.repetitionCounts,
        ∃ o, tries count = .ok o ∧ o.repetitions = count := by
      intro count configured
      exact whole.exists_outcome (mem_ascendingCounts.1 configured)
    obtain ⟨outcomes, tried⟩ := Tried.exists_of_forall all
    have full := calibrate_steady steady s t state state
    rw [tried.mapM_eq] at full
    constructor
    · intro start
      -- The remaining sizes come to the outcomes that are not skipped, in the same order.
      rw [calibrate_steady steady _ t start state, ascendingCounts_filter, full]
      refine (congrArg (· >>= _) (tried.filter (!·)).mapM_eq).trans ?_
      change (Survey.ofOutcomes _).record s _ _ = _
      rw [Survey.ofOutcomes_measured, Survey.record_withoutSkipped]
      rfl
    · intro record done
      rw [full] at done
      have points := (Survey.points_of_record done).2.2
      rw [points, Survey.map_repetitions_skippedPoints]
      exact (tried.filter id).map_repetitions

/-- The quick counts without the zero among them, in another order, on a machine whose runs all take the same
    time. -/
theorem skipped_sizes_have_no_influence_quick : ∃ record : BenchmarkRecord ℚ,
    ((dependency.calibrate (Machine.paced fun _ => ⟨5000000⟩) quickSettings).run 0).1 = .ok record ∧
    record.skippedPoints.map (·.repetitions) = [0] ∧
    ((dependency.calibrate (Machine.paced fun _ => ⟨5000000⟩)
      { quickSettings with repetitionCounts := [2, 1, 3] }).run 9).1 = .ok record.withoutSkipped := by
  obtain ⟨record, done⟩ := exists_paced_record fun _ => ⟨5000000⟩
  obtain ⟨forgotten, without⟩ :=
    skipped_sizes_have_no_influence (Machine.paced fun _ => ⟨5000000⟩) quickSettings dependency
  have steady : (Machine.paced fun _ => ⟨5000000⟩).Steady := ⟨fun _ _ _ => rfl, fun _ _ _ _ => rfl⟩
  have whole : dependency.Unbroken (Machine.paced fun _ => ⟨5000000⟩) quickSettings 0 := by
    intro count _ _ source _ fault failed
    cases failed
  obtain ⟨fewer, points⟩ := without steady 0 whole
  have zero : dependency.skips (Machine.paced fun _ => ⟨5000000⟩) quickSettings 0 0 = true := rfl
  have one : dependency.skips (Machine.paced fun _ => ⟨5000000⟩) quickSettings 0 1 = false := rfl
  have two : dependency.skips (Machine.paced fun _ => ⟨5000000⟩) quickSettings 0 2 = false := rfl
  have three : dependency.skips (Machine.paced fun _ => ⟨5000000⟩) quickSettings 0 3 = false := rfl
  have left : quickSettings.repetitionCounts.filter (fun count =>
      !dependency.skips (Machine.paced fun _ => ⟨5000000⟩) quickSettings 0 count) = [3, 1, 2, 2] := by
    have given : quickSettings.repetitionCounts = [3, 0, 1, 2, 2] := rfl
    rw [given]
    simp [zero, one, two, three]
  refine ⟨record, done, ?_, ?_⟩
  · rw [points record done, ascendingCounts_quick]
    simp [zero, one, two, three]
  · rw [forgotten [2, 1, 3] [3, 1, 2, 2] (by intro count; simp; tauto), ← left, fewer 9, done]
    rfl

end Template

end CycleCost
