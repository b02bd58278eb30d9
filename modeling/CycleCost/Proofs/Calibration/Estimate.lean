/-
Module: CycleCost.Proofs.Calibration.Estimate
Purpose: A supplied cost always wins. A manifest that passed its check has a record for each of its
  workloads, whatever the machine did, and nothing of the machine shows in it but the empirical cost beside
  the supplied one. The check of the manifest and the checks of the estimate admit the same costs.
Main exports: FixedManifest.usable_of_ofText, Estimate.analytical_of_usable, FixedWorkload.supplied,
  FixedWorkload.estimate_supplied, runSuiteFrom_of_answered, FixedManifest.supplied_cost_wins
-/
import CycleCost.Calibration.Rehearsal
import CycleCost.Calibration.Suite
import CycleCost.Proofs.Calibration.Agreement

namespace CycleCost

variable {σ τ α : Type}

/-! ### Checked manifests -/

namespace FixedManifest

variable [Scalar α]

/-- A workload passes exactly when its cost is finite and positive. -/
theorem checkWorkload_eq_ok_iff {w : FixedWorkload α} :
    checkWorkload w = .ok () ↔ Scalar.finitePositive w.expectedCpi := by
  rw [checkWorkload]
  split
  next usable => exact ⟨fun _ => usable, fun _ => rfl⟩
  next unusable =>
    constructor
    · intro passed
      cases passed
    · intro usable
      exact absurd usable unusable

theorem usable_of_forM {list : List (FixedWorkload α)} (passed : list.forM checkWorkload = .ok ()) :
    ∀ w ∈ list, Scalar.finitePositive w.expectedCpi := by
  induction list with
  | nil => exact fun _ member => nomatch member
  | cons w rest ih =>
    change (checkWorkload w >>= fun _ => rest.forM checkWorkload) = _ at passed
    cases first : checkWorkload w with
    | error fault =>
      rw [first] at passed
      cases passed
    | ok done =>
      rw [first] at passed
      exact List.forall_mem_cons.2 ⟨checkWorkload_eq_ok_iff.1 first, ih passed⟩

/-- A manifest that passes the check stays as it is, and all of its costs are usable. -/
theorem usable_of_validate {m checked : FixedManifest α} (passed : m.validate = .ok checked) :
    checked = m ∧ ∀ w ∈ m.workloads, Scalar.finitePositive w.expectedCpi := by
  rw [validate] at passed
  cases all : m.workloads.forM checkWorkload with
  | error fault =>
    rw [all] at passed
    cases passed
  | ok done =>
    rw [all] at passed
    cases passed
    exact ⟨rfl, usable_of_forM all⟩

/-- Every workload of an accepted manifest has a usable cost. -/
theorem usable_of_ofText {toml : Document.Parser} {text : String} {m : FixedManifest Float}
    (accepted : ofText toml text = .ok m) :
    ∀ w ∈ m.workloads, Scalar.finitePositive w.expectedCpi := by
  rw [ofText] at accepted
  split at accepted
  · cases accepted
  · obtain ⟨rfl, usable⟩ := usable_of_validate accepted
    exact usable

/-- A text is accepted when its manifest is seen to pass a test. -/
theorem exists_accepted {toml : Document.Parser} {text : String} {passes : FixedManifest Float → Bool}
    (tested : (ofText toml text).toOption.any passes) : ∃ m, ofText toml text = .ok m ∧ passes m := by
  cases accepted : ofText toml text with
  | error fault =>
    rw [accepted] at tested
    cases tested
  | ok m =>
    rw [accepted] at tested
    exact ⟨m, rfl, tested⟩

end FixedManifest

/-! ### One supplied cost -/

section

variable [Scalar α]

/-- A usable cost at a clock that runs has an estimate, and the timing only shows in the comparison. -/
theorem Estimate.analytical_of_usable {cpi frequencyGhz : α} (usable : Scalar.finitePositive cpi)
    (clock : Scalar.finitePositive frequencyGhz) (timing : Option (CoarseTiming α)) :
    Estimate.analytical cpi frequencyGhz timing =
      .ok ⟨.ofParts (cpi / frequencyGhz) cpi frequencyGhz .analytical,
        (timing.bind (·.cpi frequencyGhz)).map (CrossCheck.compare · cpi)⟩ := by
  have running : checkFrequency frequencyGhz = .ok () := if_pos clock
  have finite : Scalar.finite cpi := (Bool.and_eq_true_iff.1 usable).1
  have priced : Metric.ofCpi cpi frequencyGhz .analytical =
      .ok (.ofParts (cpi / frequencyGhz) cpi frequencyGhz .analytical) := by
    rw [Metric.ofCpi, running, if_pos finite]
    rfl
  rw [Estimate.analytical, running, priced, usable]
  rfl

/-- A record without the cost that a coarse timing implies. -/
def BenchmarkRecord.withoutTiming (r : BenchmarkRecord α) : BenchmarkRecord α :=
  { r with empiricalCpi := none }

/-- The record that a supplied cost has by itself. -/
def FixedWorkload.supplied (s : Settings α) (w : FixedWorkload α) : BenchmarkRecord α where
  name := w.name
  description := w.description
  instructionsPerIteration := w.instructionsPerIteration
  latencyNs := w.expectedCpi / s.frequencyGhz
  overheadMs := none
  cpi := w.expectedCpi
  ipc := if Scalar.eq w.expectedCpi Scalar.zero then none else some (Scalar.one / w.expectedCpi)
  rSquared := suppliedRSquared
  frequencyGhz := s.frequencyGhz
  method := .analytical
  calibrated := false
  empiricalCpi := none
  dataPoints := []
  skippedPoints := []

namespace FixedWorkload

variable {s : Settings α} {w : FixedWorkload α}

/-- A usable cost and a usable clock are all that a supplied record needs. -/
theorem exists_record (usable : Scalar.finitePositive w.expectedCpi)
    (clock : Scalar.finitePositive s.frequencyGhz) (timing : Option (CoarseTiming α)) :
    ∃ r, w.record s timing = .ok r ∧ r.withoutTiming = w.supplied s := by
  rw [record, Estimate.analytical_of_usable usable clock]
  exact ⟨_, rfl, rfl⟩

/-- Whatever the machine does in the coarse timing, the estimate succeeds with the supplied cost. -/
theorem estimate_supplied (m : Machine σ) (usable : Scalar.finitePositive w.expectedCpi)
    (clock : Scalar.finitePositive s.frequencyGhz) (state : σ) :
    ∃ r, ((w.estimate m s).run state).1 = .ok r ∧ r.withoutTiming = w.supplied s := by
  -- A failed timing is observed, so the record is made from it like from a good one.
  rw [estimate, Act.run_bind]
  exact exists_record usable clock _

end FixedWorkload

end

/-! ### The requests of a suite -/

/-- Requests in order, behind an outcome that is already there. -/
def runSuiteFrom (o : SuiteOutcome α) (requests : List (Request σ α)) : StateM σ (SuiteOutcome α) :=
  requests.foldlM (fun o r => o.add r.name <$> r.cost.run) o

theorem runSuiteFrom_cons (o : SuiteOutcome α) (r : Request σ α) (rest : List (Request σ α)) (state : σ) :
    runSuiteFrom o (r :: rest) state =
      runSuiteFrom (o.add r.name (r.cost.run state).1) rest (r.cost.run state).2 := rfl

/-- Requests that are all answered leave no failure and one record each, in their order. What each record is
    known to show, the records show together. -/
theorem runSuiteFrom_of_answered {β γ : Type} (request : β → Request σ α) (shows : BenchmarkRecord α → γ)
    (expected : β → γ) {list : List β}
    (answered : ∀ b ∈ list, ∀ state, ∃ r, ((request b).cost.run state).1 = .ok r ∧ shows r = expected b)
    (o : SuiteOutcome α) (state : σ) :
    ∃ records, (runSuiteFrom o (list.map request) state).1 = ⟨o.records ++ records, o.failures⟩ ∧
      records.map shows = list.map expected := by
  induction list generalizing o state with
  | nil => exact ⟨[], by rw [List.append_nil]; rfl, rfl⟩
  | cons b rest ih =>
    obtain ⟨first, others⟩ := List.forall_mem_cons.1 answered
    obtain ⟨r, done, shown⟩ := first state
    obtain ⟨records, later, all⟩ :=
      ih others (o.add (request b).name (.ok r)) ((request b).cost.run state).2
    refine ⟨r :: records, ?_, ?_⟩
    · rw [List.map_cons, runSuiteFrom_cons, done, later, SuiteOutcome.add, List.append_assoc,
        List.singleton_append]
    · rw [List.map_cons, List.map_cons, shown, all]

namespace FixedManifest

/-- On every machine, the workloads of a manifest with usable costs have their supplied records. -/
theorem estimateFixed_of_usable [Scalar α] (m : Machine σ) {s : Settings α} {manifest : FixedManifest α}
    (usable : ∀ w ∈ manifest.workloads, Scalar.finitePositive w.expectedCpi)
    (clock : Scalar.finitePositive s.frequencyGhz) (state : σ) :
    (estimateFixed m s manifest state).1.failures = [] ∧
      (estimateFixed m s manifest state).1.records.map BenchmarkRecord.withoutTiming =
        manifest.workloads.map (·.supplied s) := by
  obtain ⟨records, outcome, shown⟩ := runSuiteFrom_of_answered
    (fun w : FixedWorkload α => ⟨w.name, w.estimate m s⟩) BenchmarkRecord.withoutTiming
    (FixedWorkload.supplied s)
    (fun w member state => FixedWorkload.estimate_supplied m (usable w member) clock state)
    SuiteOutcome.empty state
  have all : (estimateFixed m s manifest state).1 = ⟨records, []⟩ := outcome
  rw [all]
  exact ⟨rfl, shown⟩

/-- Of a manifest that was accepted, however its text was parsed, the suite has no failure and the supplied
    record of each workload in order, on every machine; two machines can only differ in the empirical costs
    beside them. -/
theorem supplied_cost_wins {toml : Document.Parser} {text : String} {manifest : FixedManifest Float}
    (accepted : ofText toml text = .ok manifest) {s : Settings Float}
    (clock : Scalar.finitePositive s.frequencyGhz) (m : Machine σ) (n : Machine τ) (a : σ)
    (b : τ) :
    (estimateFixed m s manifest a).1.failures = [] ∧
    (estimateFixed m s manifest a).1.records.map BenchmarkRecord.withoutTiming =
      manifest.workloads.map (·.supplied s) ∧
    (estimateFixed m s manifest a).1.records.map BenchmarkRecord.withoutTiming =
      (estimateFixed n s manifest b).1.records.map BenchmarkRecord.withoutTiming := by
  have usable := usable_of_ofText accepted
  obtain ⟨whole, shown⟩ := estimateFixed_of_usable m usable clock a
  obtain ⟨-, other⟩ := estimateFixed_of_usable n usable clock b
  exact ⟨whole, shown, shown.trans other.symm⟩

/-- A manifest of one workload, whose cost is written as a whole number. -/
def oneWorkload : String :=
  "[[workload]]\nname = \"gemm\"\ninstructions_per_iteration = 340\n" ++
    "executable = \"bin/gemm\"\nexpected_cpi = 2\n"

/-- A machine on which every run takes too long, beside one on which every run is well. -/
theorem supplied_cost_wins_gemm :
    ∃ manifest : FixedManifest Float, ofText Document.Toml.parse oneWorkload = .ok manifest ∧
    manifest.workloads.length = 1 ∧
    let slow := Rehearsal.machine ⟨[("*", [⟨⟨0⟩, none, some (.timedOut "gemm" ⟨1⟩)⟩])], [], [], []⟩
    let well := Rehearsal.machine ⟨[], [], [], []⟩
    let settings := Settings.ofProfile .quick
    (estimateFixed slow settings manifest .start).1.failures = [] ∧
    (estimateFixed slow settings manifest .start).1.records.length = 1 ∧
    (estimateFixed slow settings manifest .start).1.records.map BenchmarkRecord.withoutTiming =
      (estimateFixed well settings manifest .start).1.records.map BenchmarkRecord.withoutTiming := by
  -- The cost that was read is a floating-point number; only the shape of the manifest is compared.
  obtain ⟨manifest, accepted, read⟩ : ∃ manifest, ofText Document.Toml.parse oneWorkload = .ok manifest ∧
      (manifest.workloads.length == 1) = true := exists_accepted (by decide +kernel)
  have single : manifest.workloads.length = 1 := beq_iff_eq.1 read
  refine ⟨manifest, accepted, single, ?_⟩
  intro slow well settings
  have clock : Scalar.finitePositive settings.frequencyGhz := by decide +kernel
  obtain ⟨whole, shown, same⟩ := supplied_cost_wins accepted clock slow well .start .start
  refine ⟨whole, ?_, same⟩
  have count := congrArg List.length shown
  rw [List.length_map, List.length_map] at count
  exact count.trans single

end FixedManifest

end CycleCost
