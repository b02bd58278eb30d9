/-
Module: CycleCost.Proofs.Calibration.Visit
Purpose: A calibration of a template seen from the machine. Each admitted size is one visit: the build of its
  source and, if that gives a program, the timing of this program. A refused size is no visit, and a broken
  build is the last one. What a size comes to is a function of its visit alone.
Main exports: Visit, Visit.exchanges, Visit.Proper, Visit.breakage, Visit.timing, Visit.outcome, Route,
  Template.trySize_yields, Template.calibrate_yields
-/
import CycleCost.Calibration.Benchmark
import CycleCost.Proofs.Calibration.Timing
import CycleCost.Proofs.Workload.Admission

namespace CycleCost

/-- A size whose source went to the machine: what the build gave, and the answers to the runs. -/
structure Visit where
  count : UInt64
  source : String
  built : Result String
  answers : List (Result Run)

variable {σ α : Type}

namespace Visit

/-- What is exchanged in a visit: the build, and runs of the built program only. -/
def exchanges (limit : Duration) (v : Visit) : List Exchange :=
  .build v.source v.built ::
    match v.built with
    | .ok program => v.answers.map (.run program limit)
    | .error _ => []

/-- Why the build of a visit ends the whole benchmark. A build that takes too long does not. -/
def breakage (v : Visit) : Option Fault :=
  match v.built with
  | .ok _ => none
  | .error fault => if fault.isTimeout then none else some fault

theorem breakage_of_ok {v : Visit} {program : String} (made : v.built = .ok program) :
    v.breakage = none := by
  rw [breakage, made]

/-- A build that runs out of time does not break the calibration. -/
theorem breakage_of_timeout {v : Visit} {fault : Fault} (failed : v.built = .error fault)
    (slow : fault.isTimeout) : v.breakage = none := by
  rw [breakage, failed]
  exact if_pos slow

/-- A build that fails in any other way breaks the calibration. -/
theorem breakage_of_error {v : Visit} {fault : Fault} (failed : v.built = .error fault)
    (broken : ¬ fault.isTimeout) : v.breakage = some fault := by
  rw [breakage, failed]
  exact if_neg broken

/-- A visit as a calibration makes it: of an admitted size, with the source of its program, and with the
    dialogue of a timing once the program is built. -/
structure Proper (s : Settings α) (t : Template) (v : Visit) : Prop where
  admitted : Admitted v.count
  source : (⟨t, v.count, s.abi⟩ : Program).source = .ok v.source
  dialogue : ∀ program, v.built = .ok program → s.harness.Dialogue (some generatedExit) v.answers
  unbuilt : ∀ fault, v.built = .error fault → v.answers = []

variable [Scalar α]

/-- The timing of a visit. -/
def timing (s : Settings α) (t : Template) (v : Visit) : Result (Observation α) :=
  match v.built with
  | .ok _ =>
    s.harness.reduce (some generatedExit) (t.instructionsPerIteration * v.count) v.answers
  | .error fault => .error fault

/-- What becomes of a visited size. -/
def outcome (s : Settings α) (t : Template) (v : Visit) : Outcome α :=
  match v.timing s t with
  | .ok o => .measured v.count (some (Digest.hex s.hash v.source)) o
  | .error fault => .skipped v.count fault

end Visit

variable [Scalar α]

/-- The visits for sizes in order, the outcomes they come to, and the fault that ends them early, if there
    is one: a refused size is passed over, and a broken build is the last visit. -/
inductive Route (s : Settings α) (t : Template) :
    List UInt64 → List Visit → List (Outcome α) → Option Fault → Prop where
  | done : Route s t [] [] [] none
  | refused {count : UInt64} {rest : List UInt64} {visits : List Visit}
      {outcomes : List (Outcome α)} {fault : Option Fault} :
      ¬ Admitted count → Route s t rest visits outcomes fault →
        Route s t (count :: rest) visits (.skipped count (refusal count) :: outcomes) fault
  | broken {v : Visit} {rest : List UInt64} {fault : Fault} :
      v.Proper s t → v.breakage = some fault → Route s t (v.count :: rest) [v] [] (some fault)
  | visited {v : Visit} {rest : List UInt64} {visits : List Visit}
      {outcomes : List (Outcome α)} {fault : Option Fault} :
      v.Proper s t → v.breakage = none → Route s t rest visits outcomes fault →
        Route s t (v.count :: rest) (v :: visits) (v.outcome s t :: outcomes) fault

/-! ### The visit of one size -/

namespace Template

/-- A size that is not admitted is skipped without a request. -/
theorem trySize_of_not_admitted (m : Machine σ) (s : Settings α) (t : Template) {count : UInt64}
    (unfit : ¬ Admitted count) : t.trySize m s count = pure (.skipped count (refusal count)) := by
  rw [trySize, Program.bind_of_not_admitted unfit]

/-- An admitted size is built from its source; no step before the build can fail. -/
theorem trySize_of_admitted (m : Machine σ) (s : Settings α) (t : Template) {count : UInt64}
    (admitted : Admitted count) :
    ∃ text, (⟨t, count, s.abi⟩ : Program).source = .ok text ∧
      t.trySize m s count = (m.build text).observe >>= fun built =>
        match built with
        | .ok program =>
          timeBuilt m s count (Digest.hex s.hash text) program (t.instructionsPerIteration * count)
        | .error fault => if fault.isTimeout then pure (.skipped count fault) else throw fault := by
  obtain ⟨text, spelled⟩ := Program.exists_source_of_admitted (p := ⟨t, count, s.abi⟩) admitted
  refine ⟨text, spelled, ?_⟩
  rw [trySize, Program.bind_of_admitted admitted]
  dsimp only
  rw [Program.totalWork_of_admitted admitted, spelled]
  exact (Act.ofResult_ok_bind _ _).trans (Act.ofResult_ok_bind _ _)

/-- A built size asks for the runs of its timing. -/
theorem timeBuilt_yields (m : Machine σ) (s : Settings α) (count : UInt64) (digest program : String)
    (work : UInt64) :
    (timeBuilt m.transcribed s count digest program work).Yields fun ex r => ∃ answers,
      ex = answers.map (.run program s.harness.timeout) ∧
      s.harness.Dialogue (some generatedExit) answers ∧
      r = .ok (match s.harness.reduce (some generatedExit) work answers with
        | .ok o => .measured count (some digest) o
        | .error fault => .skipped count fault) := by
  have asks := Act.Yields.transcribed (.run program s.harness.timeout) (m.run program s.harness.timeout)
  refine (measure_yields asks (some generatedExit) work s.harness).observe.bind
    (fun timing first found => ?_) fun fault first found => ?_
  · obtain ⟨_, same, answers, rfl, dialogue, rfl⟩ := found
    cases same
    refine (Act.Yields.release (P := fun ex r => ex = [] ∧ r = .ok ()) m program ⟨rfl, rfl⟩).bind
      (fun _ silent found => ?_) fun fault silent found => ?_
    · obtain ⟨rfl, _⟩ := found
      cases reduced : s.harness.reduce (some generatedExit) work answers with
      | ok o => exact .pure ⟨answers, by simp, dialogue, by rw [reduced]⟩
      | error fault => exact .pure ⟨answers, by simp, dialogue, by rw [reduced]⟩
    · cases found.2
  · obtain ⟨_, same, _⟩ := found
    cases same

/-- A refused size asks for nothing and is skipped; an admitted one is a visit. -/
theorem trySize_yields (m : Machine σ) (s : Settings α) (t : Template) (count : UInt64) :
    (t.trySize m.transcribed s count).Yields fun ex r =>
      (¬ Admitted count ∧ ex = [] ∧ r = .ok (.skipped count (refusal count))) ∨
      ∃ v : Visit, v.count = count ∧ v.Proper s t ∧ ex = v.exchanges s.harness.timeout ∧
        r = v.breakage.elim (.ok (v.outcome s t)) .error := by
  by_cases admitted : Admitted count
  · obtain ⟨text, spelled, tried⟩ := t.trySize_of_admitted m.transcribed s admitted
    rw [tried]
    refine (Act.Yields.transcribed (.build text) (m.build text)).observe.bind
      (fun built first found => ?_) fun fault first found => ?_
    · obtain ⟨_, same, rfl⟩ := found
      cases same
      cases built with
      | ok program =>
        refine (timeBuilt_yields m s count _ program _).mono fun rest r found => .inr ?_
        obtain ⟨answers, rfl, dialogue, rfl⟩ := found
        refine ⟨⟨count, text, .ok program, answers⟩, rfl,
          ⟨admitted, spelled, fun _ _ => dialogue, fun fault failed => ?_⟩, rfl, rfl⟩
        cases failed
      | error fault =>
        have proper : (⟨count, text, .error fault, []⟩ : Visit).Proper s t := by
          refine ⟨admitted, spelled, fun program made => ?_, fun _ _ => rfl⟩
          cases made
        dsimp only
        split
        next slow =>
          refine .pure (.inr ⟨_, rfl, proper, rfl, ?_⟩)
          rw [Visit.breakage_of_timeout rfl slow]
          rfl
        next broken =>
          refine .throw (.inr ⟨_, rfl, proper, rfl, ?_⟩)
          rw [Visit.breakage_of_error rfl broken]
          rfl
    · obtain ⟨_, same, _⟩ := found
      cases same
  · rw [t.trySize_of_not_admitted m.transcribed s admitted]
    exact .pure (.inl ⟨admitted, rfl, rfl⟩)

/-! ### The visits of a whole calibration -/

/-- The sizes are tried one after another up to a broken build. -/
theorem mapM_trySize_yields (m : Machine σ) (s : Settings α) (t : Template) (counts : List UInt64) :
    (counts.mapM (t.trySize m.transcribed s)).Yields fun ex r => ∃ visits outcomes fault,
      ex = visits.flatMap (·.exchanges s.harness.timeout) ∧ Route s t counts visits outcomes fault ∧
      r = fault.elim (.ok outcomes) .error := by
  induction counts with
  | nil => exact .pure ⟨[], [], none, rfl, .done, rfl⟩
  | cons count rest ih =>
    -- The first size goes through or ends everything; after it the rest goes through or ends early.
    rw [List.mapM_cons]
    refine (trySize_yields m s t count).bind (fun o first found => ?_) fun fault first found => ?_
    · refine ih.bind (fun outcomes ex later => ?_) fun fault ex later => ?_
      · obtain ⟨visits, outcomes, fault, rfl, route, ended⟩ := later
        obtain ⟨rfl, rfl⟩ := eq_none_of_ok ended
        rcases found with ⟨unfit, rfl, same⟩ | ⟨v, rfl, proper, rfl, same⟩
        · cases same
          exact .pure ⟨visits, _, none, by simp, .refused unfit route, rfl⟩
        · obtain ⟨whole, rfl⟩ := eq_none_of_ok same
          exact .pure ⟨v :: visits, _, none, by simp, .visited proper whole route, rfl⟩
      · obtain ⟨visits, outcomes, reason, rfl, route, ended⟩ := later
        obtain rfl := eq_some_of_error ended
        rcases found with ⟨unfit, rfl, same⟩ | ⟨v, rfl, proper, rfl, same⟩
        · exact ⟨visits, _, some fault, by simp, .refused unfit route, rfl⟩
        · exact ⟨v :: visits, _, some fault, by simp,
            .visited proper (eq_none_of_ok same).1 route, rfl⟩
    · rcases found with ⟨_, _, same⟩ | ⟨v, rfl, proper, rfl, same⟩
      · cases same
      · exact ⟨[v], [], some fault, by simp, .broken proper (eq_some_of_error same), rfl⟩

/-- A calibration exchanges its visits with the machine. Its result is the fault that ended them or the
    record of their outcomes. -/
theorem calibrate_yields (m : Machine σ) (s : Settings α) (t : Template) :
    (t.calibrate m.transcribed s).Yields fun ex r => ∃ visits outcomes fault,
      ex = visits.flatMap (·.exchanges s.harness.timeout) ∧
      Route s t (ascendingCounts s.repetitionCounts) visits outcomes fault ∧
      r = fault.elim ((Survey.ofOutcomes outcomes).record s ⟨t.name, t.description⟩
        t.instructionsPerIteration) .error := by
  refine (mapM_trySize_yields m s t _).bind (fun outcomes first found => ?_) fun fault first found => ?_
  · obtain ⟨visits, outcomes, fault, rfl, route, ended⟩ := found
    obtain ⟨rfl, rfl⟩ := eq_none_of_ok ended
    exact .ofResult ⟨visits, _, none, List.append_nil _, route, rfl⟩
  · obtain ⟨visits, outcomes, reason, rfl, route, ended⟩ := found
    obtain rfl := eq_some_of_error ended
    exact ⟨visits, outcomes, some fault, rfl, route, rfl⟩

end Template

end CycleCost
