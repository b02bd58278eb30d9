/-
Module: CycleCost.Proofs.Calibration.Mirror
Purpose: The two ways to calibrate agree. A kernel mirrors a template when its builds are answered like those
  of the template's sources and its counted instructions are the template's work. On a machine without a
  memory each size then comes to the same on both ways, so both fail with the same fault or have the same
  record, up to the title and the digests of sources that a kernel does not have.
Main exports: BenchmarkRecord.asKernel, KernelSpec.Mirrors, KernelSpec.trySize_mirrors,
  Template.instructionsPerCall_of_calibrate, KernelSpec.agrees_with_template
-/
import CycleCost.Proofs.Calibration.Influence
import CycleCost.Proofs.Calibration.Kernel

namespace CycleCost

variable {σ α β γ δ : Type}

/-! ### What a kernel does not have -/

/-- A measured size without the digest of a source. -/
def DataPoint.withoutDigest (p : DataPoint α) : DataPoint α := { p with sourceDigest := none }

/-- An outcome without the digest of a source. -/
def Outcome.withoutDigest : Outcome α → Outcome α
  | measured count _ o => measured count none o
  | skipped count reason => skipped count reason

/-- The outcome of a size of a kernel, from its timing. -/
def Outcome.ofTiming (count : UInt64) : Result (Observation α) → Outcome α
  | .ok o => .measured count none o
  | .error fault => .skipped count fault

/-- The record of a template as that of a kernel with a title of its own. -/
def BenchmarkRecord.asKernel (title : Title) (r : BenchmarkRecord α) : BenchmarkRecord α :=
  { r with
    name := title.name
    description := title.description
    dataPoints := r.dataPoints.map DataPoint.withoutDigest }

/-- The figure per call does not read the digests. -/
theorem instructionsPerCall_withoutDigest (points : List (DataPoint α)) :
    instructionsPerCall (points.map DataPoint.withoutDigest) = instructionsPerCall points := by
  rcases List.eq_nil_or_concat' points with rfl | ⟨smaller, p, rfl⟩
  · rfl
  · rw [List.map_append, List.map_singleton, instructionsPerCall_concat, instructionsPerCall_concat]
    rfl

theorem Survey.ofOutcomes_withoutDigest (outcomes : List (Outcome α)) :
    ofOutcomes (outcomes.map Outcome.withoutDigest) =
      { ofOutcomes outcomes with
        dataPoints := (ofOutcomes outcomes).dataPoints.map DataPoint.withoutDigest } := by
  have observed : (outcomes.map Outcome.withoutDigest).filterMap Outcome.observation =
      (outcomes.filterMap Outcome.observation).map id := by
    apply filterMap_changed
    intro o
    cases o <;> rfl
  have measured : (outcomes.map Outcome.withoutDigest).filterMap Outcome.dataPoint =
      (outcomes.filterMap Outcome.dataPoint).map DataPoint.withoutDigest := by
    apply filterMap_changed
    intro o
    cases o <;> rfl
  have skipped : (outcomes.map Outcome.withoutDigest).filterMap Outcome.skippedPoint =
      (outcomes.filterMap Outcome.skippedPoint).map id := by
    apply filterMap_changed
    intro o
    cases o <;> rfl
  rw [ofOutcomes, observed, measured, skipped, List.map_id, List.map_id]
  rfl

/-- Results that are all changed in one way are changed in this way together, the first fault included. -/
theorem mapM_map_of_forall {f : β → Result γ} {g : β → Result δ} {change : γ → δ} {list : List β}
    (each : ∀ b ∈ list, g b = (f b).map change) : list.mapM g = (list.mapM f).map (List.map change) := by
  induction list with
  | nil => rfl
  | cons b rest ih =>
    obtain ⟨first, others⟩ := List.forall_mem_cons.1 each
    rw [List.mapM_cons, List.mapM_cons, first, ih others]
    cases f b with
    | error fault => rfl
    | ok c =>
      cases rest.mapM f with
      | error fault => rfl
      | ok cs => rfl

variable [Scalar α]

/-! ### The record of the other way -/

/-- Neither the title nor the figure for one call decides whether there is a record. -/
theorem Survey.record_asKernel (survey : Survey α) (s : Settings α) (title other : Title)
    {work perCall : UInt64}
    (same : ∀ record, survey.record s other work = .ok record → perCall = work) :
    Survey.record { survey with dataPoints := survey.dataPoints.map DataPoint.withoutDigest } s title
        perCall =
      (survey.record s other work).map (BenchmarkRecord.asKernel title) := by
  rw [record] at same
  rw [record, record]
  cases fitted : s.fit survey.series with
  | error fault => rfl
  | ok cost =>
    rw [fitted] at same
    obtain rfl := same _ rfl
    rfl

namespace Template

variable {m : Machine σ} {s : Settings α} {t : Template} {state : σ}

/-- Counted from its largest size, one iteration of a template retires the instructions that it declares. -/
theorem instructionsPerCall_of_calibrate {record : BenchmarkRecord α}
    (done : ((t.calibrate m s).run state).1 = .ok record) :
    instructionsPerCall record.dataPoints = t.instructionsPerIteration := by
  obtain ⟨visits, outcomes, fault, -, route, ended⟩ := exists_tour m s t state
  rw [done] at ended
  cases fault with
  | some reason => cases ended
  | none =>
    have recorded := ended.symm
    obtain ⟨smaller, p, points⟩ := (List.eq_nil_or_concat' record.dataPoints).resolve_left
      (Survey.dataPoints_ne_nil_of_record recorded)
    have member : p ∈ (Survey.ofOutcomes outcomes).dataPoints := by
      rw [← (Survey.points_of_record recorded).2.1, points]
      exact List.mem_append_right smaller List.mem_cons_self
    obtain ⟨admitted, work, -⟩ := route.dataPoint_spec p member
    have positive : max p.repetitions 1 = p.repetitions := by
      apply UInt64.toNat_inj.1
      rw [UInt64.toNat_max]
      exact Nat.max_eq_left admitted.toNat_pos
    rw [points, instructionsPerCall_concat, positive]
    apply UInt64.toNat_inj.1
    rw [UInt64.toNat_div, work, Nat.mul_div_cancel _ admitted.toNat_pos]

/-- A built size comes to its timing. -/
theorem outcome_timeBuilt (m : Machine σ) (s : Settings α) (count : UInt64) (digest program : String)
    (work : UInt64) (state : σ) :
    ((timeBuilt m s count digest program work).run state).1.map Outcome.withoutDigest =
      .ok (.ofTiming count ((timeProgram m s.harness program generatedExit work).run state).1) := by
  rw [timeBuilt, Act.run_observe_bind]
  cases ((timeProgram m s.harness program generatedExit work).run state).1 with
  | ok o => rfl
  | error fault => rfl

end Template

namespace KernelSpec

/-- A kernel mirrors a template on a machine. It has the counts of the settings and the exit code of generated
    programs; each of its builds is answered like the build of the template's source for that count; and of
    each built program the work of the template is counted. -/
structure Mirrors (k : KernelSpec) (t : Template) (m : Machine σ) (s : Settings α) (state : σ) : Prop where
  counts : ∀ count, count ∈ k.repetitionCounts.getD k.tier.repetitionCounts ↔ count ∈ s.repetitionCounts
  exit : k.expectedExit = 0
  build : ∀ count ∈ s.repetitionCounts, ∀ source, (⟨t, count, s.abi⟩ : Program).source = .ok source →
    ((m.buildKernel k.name count).run state).1 = ((m.build source).run state).1
  work : ∀ count ∈ s.repetitionCounts, ∀ program,
    ((m.buildKernel k.name count).run state).1 = .ok program →
      ((m.count program).run state).1 = .ok (t.instructionsPerIteration * count)

variable {m : Machine σ} {s : Settings α} {k : KernelSpec} {t : Template} {state : σ}

/-- The outcome of a kernel's size is the outcome of timing it. -/
theorem outcome_trySize (m : Machine σ) (s : Settings α) (k : KernelSpec) (count : UInt64) (state : σ) :
    ((k.trySize m s count).run state).1 = .ok (.ofTiming count ((k.timeSize m s count).run state).1) := by
  rw [trySize, Act.run_observe_bind]
  cases ((k.timeSize m s count).run state).1 with
  | ok o => rfl
  | error fault => rfl

/-- A size that cannot be built is not timed. -/
theorem timeSize_unbuilt {count : UInt64} {fault : Fault}
    (failed : ((m.buildKernel k.name count).run state).1 = .error fault) :
    ((k.timeSize m s count).run state).1 = .error fault := by
  rw [timeSize, Act.outcome_bind, failed]
  rfl

/-- A built size is timed like that of the template, which is in another state by then. -/
theorem timeSize_mirrors (memoryless : m.Memoryless) (mirror : k.Mirrors t m s state) {count : UInt64}
    (configured : count ∈ s.repetitionCounts) {program : String}
    (built : ((m.buildKernel k.name count).run state).1 = .ok program) (other : σ) :
    ((k.timeSize m s count).run state).1 =
      ((timeProgram m s.harness program generatedExit (t.instructionsPerIteration * count)).run other).1 := by
  have counted (later : σ) :
      ((m.count program).run later).1 = .ok (t.instructionsPerIteration * count) := by
    rw [memoryless.count program later state]
    exact mirror.work count configured program built
  rw [timeSize, Act.outcome_bind, built]
  change ((m.count program >>= timeProgram m s.harness program k.expectedExit).run _).1 = _
  rw [Act.outcome_bind, counted, mirror.exit]
  exact (measure_agree (memoryless.agree.run program _) _ _ _ _ other trivial).1

/-- Every size comes to the same on both ways. -/
theorem trySize_mirrors (memoryless : m.Memoryless) (mirror : k.Mirrors t m s state)
    (whole : t.Unbroken m s state) {count : UInt64} (configured : count ∈ s.repetitionCounts)
    (admitted : Admitted count) :
    ((k.trySize m s count).run state).1 =
      ((t.trySize m s count).run state).1.map Outcome.withoutDigest := by
  obtain ⟨text, spelled, tried⟩ := t.trySize_of_admitted m s admitted
  have same := mirror.build count configured text spelled
  rw [outcome_trySize, tried, Act.run_observe_bind]
  cases built : ((m.build text).run state).1 with
  | error fault =>
    dsimp only
    have slow := whole count configured admitted text spelled fault built
    rw [timeSize_unbuilt (same.trans built), if_pos slow]
    rfl
  | ok program =>
    dsimp only
    rw [Template.outcome_timeBuilt, timeSize_mirrors memoryless mirror configured (same.trans built)]

theorem trySize_steady (memoryless : m.Memoryless) (s : Settings α) (k : KernelSpec) (count : UInt64)
    (a b : σ) : ((k.trySize m s count).run a).1 = ((k.trySize m s count).run b).1 :=
  (k.trySize_agree memoryless.agree s count a b trivial).1

/-- On a machine without a memory, where builds succeed or take too long, a kernel that mirrors a template
    fails with the same fault or has the same record, up to the title and the digests of the sources. -/
theorem agrees_with_template (memoryless : m.Memoryless)
    (admitted : ∀ count ∈ s.repetitionCounts, Admitted count) (whole : t.Unbroken m s state)
    (mirror : k.Mirrors t m s state) (a b : σ) :
    ((k.calibrate m s).run a).1 =
      ((t.calibrate m s).run b).1.map (BenchmarkRecord.asKernel ⟨k.name, k.description⟩) := by
  let outcome (count : UInt64) := ((t.trySize m s count).run state).1
  have sizes : k.counts = ascendingCounts s.repetitionCounts := ascendingCounts_congr mirror.counts
  have each : ∀ count ∈ ascendingCounts s.repetitionCounts,
      ((k.trySize m s count).run state).1 = (outcome count).map Outcome.withoutDigest := by
    intro count member
    have configured := mem_ascendingCounts.1 member
    exact trySize_mirrors memoryless mirror whole configured (admitted count configured)
  have ended := Template.calibrate_steady memoryless.steady s t b state
  rw [calibrate, Act.outcome_bind, Act.run_mapM_steady (trySize_steady memoryless s k) _ a state, sizes,
    mapM_map_of_forall each, ended]
  change _ = ((ascendingCounts s.repetitionCounts).mapM outcome >>= _).map _
  cases tried : (ascendingCounts s.repetitionCounts).mapM outcome with
  | error fault => rfl
  | ok outcomes =>
    change (Survey.ofOutcomes (outcomes.map Outcome.withoutDigest)).record s ⟨k.name, k.description⟩
      (instructionsPerCall (Survey.ofOutcomes (outcomes.map Outcome.withoutDigest)).dataPoints) = _
    rw [Survey.ofOutcomes_withoutDigest, instructionsPerCall_withoutDigest]
    apply Survey.record_asKernel
    intro record done
    have recorded : ((t.calibrate m s).run b).1 = .ok record := by
      rw [ended]
      change (ascendingCounts s.repetitionCounts).mapM outcome >>= _ = _
      rw [tried]
      exact done
    rw [← (Survey.points_of_record done).2.1]
    exact Template.instructionsPerCall_of_calibrate recorded

/-! ### Sizes of which one takes too long to build -/

/-- The source of dependent additions at a count. -/
def chainSource (count : UInt64) : String :=
  match (⟨.dependency, count, .linux⟩ : Program).source with
  | .ok text => text
  | .error _ => ""

theorem source_chain {count : UInt64} {text : String}
    (spelled : (⟨.dependency, count, .linux⟩ : Program).source = .ok text) : chainSource count = text := by
  rw [chainSource, spelled]

/-- A kernel of dependent additions. -/
def chain : KernelSpec := ⟨"chain", "written by hand", .cubic, some [1, 2, 3, 4], 0⟩

/-- The quick profile with the counts of the kernel, in another order. -/
def chainSettings : Settings ℚ := { Template.quickSettings with repetitionCounts := [3, 1, 4, 2, 2] }

theorem ascendingCounts_chain : ascendingCounts chainSettings.repetitionCounts = [1, 2, 3, 4] := by
  apply ascendingCounts_eq (by decide)
  intro count
  simp [chainSettings]
  tauto

/-- A build by which programs are their own sources, and the largest one takes too long. -/
def chainBuild (source : String) : Result String :=
  if source = chainSource 4 then .error (.timedOut "as" ⟨1⟩) else .ok source

/-- The counted instructions of the programs that are built. -/
def chainCount (program : String) : Result UInt64 :=
  match [1, 2, 3].find? fun count => chainSource count == program with
  | some count => .ok (20 * count)
  | none => .error .noSamples

/-- A machine that builds a kernel from the source of the additions. -/
def chainMachine : Machine Unit where
  build source := Act.ofResult (chainBuild source)
  buildKernel _ count := Act.ofResult (chainBuild (chainSource count))
  count program := Act.ofResult (chainCount program)
  run _ _ := pure ⟨some 0, ⟨5000000⟩⟩
  release _ := pure ()

theorem chainBuild_small : ∀ count ∈ [1, 2, 3], chainBuild (chainSource count) = .ok (chainSource count) := by
  have apart : [1, 2, 3].all fun count => chainSource count != chainSource 4 := by decide +kernel
  intro count small
  exact if_neg (bne_iff_ne.1 (List.all_eq_true.1 apart count small))

theorem chainBuild_large : chainBuild (chainSource 4) = .error (.timedOut "as" ⟨1⟩) := if_pos rfl

theorem chainCount_small : ∀ count ∈ [1, 2, 3], chainCount (chainSource count) = .ok (20 * count) := by
  have found : [1, 2, 3].all fun count =>
      [1, 2, 3].find? (fun other => chainSource other == chainSource count) == some count := by
    decide +kernel
  intro count small
  rw [chainCount, eq_of_beq (List.all_eq_true.1 found count small)]

/-- The kernel of the example mirrors the chain of dependent additions. -/
theorem chain_mirrors : chain.Mirrors .dependency chainMachine chainSettings () := by
  constructor
  case counts =>
    intro count
    simp [chain, chainSettings]
    tauto
  case exit => rfl
  case build =>
    intro count _ source spelled
    obtain rfl := source_chain spelled
    rfl
  case work =>
    intro count configured program built
    change chainBuild (chainSource count) = .ok program at built
    change chainCount program = .ok (20 * count)
    by_cases large : count = 4
    · rw [large, chainBuild_large] at built
      cases built
    · have small : count ∈ [1, 2, 3] := by
        revert configured large
        simp [chainSettings]
        tauto
      rw [chainBuild_small count small] at built
      cases built
      exact chainCount_small count small

/-- A size that was built in time is measured. -/
theorem trySize_chain : ∀ count ∈ [1, 2, 3], ∃ digest o,
    ((Template.dependency.trySize chainMachine chainSettings count).run ()).1 =
      .ok (.measured count digest o) ∧ o.workUnits = 20 * count := by
  intro count small
  have all : [1, 2, 3].all fun count => decide (Admitted count) := by decide
  have admitted : Admitted count := of_decide_eq_true (List.all_eq_true.1 all count small)
  obtain ⟨text, spelled, tried⟩ := Template.dependency.trySize_of_admitted chainMachine chainSettings admitted
  obtain rfl := source_chain spelled
  have built : (chainMachine.build (chainSource count)).run () = (.ok (chainSource count), ()) :=
    congrArg (·, ()) (chainBuild_small count small)
  rw [tried, Act.run_observe_bind, built]
  exact ⟨_, _, rfl, rfl⟩

theorem trySize_chain_large :
    ((Template.dependency.trySize chainMachine chainSettings 4).run ()).1 =
      .ok (.skipped 4 (.timedOut "as" ⟨1⟩)) := by
  have admitted : Admitted 4 := by decide
  obtain ⟨text, spelled, tried⟩ := Template.dependency.trySize_of_admitted chainMachine chainSettings admitted
  obtain rfl := source_chain spelled
  have built : (chainMachine.build (chainSource 4)).run () = (.error (.timedOut "as" ⟨1⟩), ()) :=
    congrArg (·, ()) chainBuild_large
  rw [tried, Act.run_observe_bind, built]
  rfl

/-- Both ways measure three sizes, give up the fourth one and have the same cost. -/
theorem agrees_with_template_chain : ∃ record : BenchmarkRecord ℚ,
    ((Template.dependency.calibrate chainMachine chainSettings).run ()).1 = .ok record ∧
    record.skippedPoints = [⟨4, (Fault.timedOut "as" ⟨1⟩).message⟩] ∧
    ((chain.calibrate chainMachine chainSettings).run ()).1 =
      .ok (record.asKernel ⟨"chain", "written by hand"⟩) := by
  have memoryless : chainMachine.Memoryless :=
    ⟨fun _ _ _ => rfl, fun _ _ _ _ => rfl, fun _ _ _ => rfl, fun _ _ _ _ => rfl⟩
  have all : chainSettings.repetitionCounts.all fun count => decide (Admitted count) := by decide
  have admitted : ∀ count ∈ chainSettings.repetitionCounts, Admitted count :=
    fun count configured => of_decide_eq_true (List.all_eq_true.1 all count configured)
  have whole : Template.dependency.Unbroken chainMachine chainSettings () := by
    intro count _ _ source _ fault failed
    change chainBuild source = .error fault at failed
    rw [chainBuild] at failed
    split at failed
    · cases failed
      rfl
    · cases failed
  obtain ⟨a, p, first, workP⟩ := trySize_chain 1 (by decide)
  obtain ⟨b, q, second, workQ⟩ := trySize_chain 2 (by decide)
  obtain ⟨c, r, third, workR⟩ := trySize_chain 3 (by decide)
  have tried : Tried (fun count => ((Template.dependency.trySize chainMachine chainSettings count).run ()).1)
      [1, 2, 3, 4]
      [.measured 1 a p, .measured 2 b q, .measured 3 c r, .skipped 4 (.timedOut "as" ⟨1⟩)] :=
    .cons ⟨first, rfl⟩ (.cons ⟨second, rfl⟩ (.cons ⟨third, rfl⟩ (.cons ⟨trySize_chain_large, rfl⟩ .nil)))
  have full := Template.calibrate_steady memoryless.steady chainSettings .dependency () ()
  rw [ascendingCounts_chain, tried.mapM_eq] at full
  obtain ⟨record, recorded⟩ : ∃ record, (Survey.ofOutcomes [.measured 1 a p, .measured 2 b q,
      .measured 3 c r, .skipped 4 (.timedOut "as" ⟨1⟩)]).record chainSettings
        ⟨Template.dependency.name, Template.dependency.description⟩
        Template.dependency.instructionsPerIteration = .ok record :=
    Survey.exists_record_iff.2 (Template.exists_quick_fit workP workQ workR)
  have done := full.trans recorded
  have same := agrees_with_template memoryless admitted whole chain_mirrors () ()
  exact ⟨record, done, (Survey.points_of_record recorded).2.2, same.trans (congrArg _ done)⟩

end KernelSpec

end CycleCost
