/-
Module: CycleCost.Proofs.Calibration.Isolation
Purpose: One benchmark cannot disturb another. Every request of a suite has one entry, a record or a failure
  under the requested name, and the entries keep the order of the requests. On a machine without a memory an
  entry is what its benchmark comes to by itself, so suites that ask for the same in another order have the
  same entries in another order.
Main exports: Entry, SuiteOutcome.ofEntries, entriesOf, runSuiteFrom_eq, Suite, Suite.run, Suite.alone,
  Suite.Permuted, Suite.benchmarks_are_isolated
-/
import CycleCost.Proofs.Calibration.Coverage
import CycleCost.Proofs.Calibration.Estimate
import CycleCost.Proofs.Workload.Registry

namespace CycleCost

variable {σ α : Type}

/-! ### Entries -/

/-- A requested name and what its benchmark came to. -/
structure Entry (α : Type) where
  name : String
  result : Result (BenchmarkRecord α)

namespace Entry

/-- The record of a benchmark that has one. -/
def record (e : Entry α) : Option (BenchmarkRecord α) := e.result.toOption

/-- A benchmark without a record is a failure under the requested name. -/
def failure (e : Entry α) : Option BenchmarkFailure :=
  match e.result with
  | .ok _ => none
  | .error fault => some ⟨e.name, fault.message⟩

/-- Each entry is a record or a failure, and not both. -/
theorem length_records_add_failures (entries : List (Entry α)) :
    (entries.filterMap record).length + (entries.filterMap failure).length = entries.length := by
  induction entries with
  | nil => rfl
  | cons e rest ih =>
    rcases e with ⟨name, result⟩
    cases result with
    | ok record => exact (Nat.add_right_comm ..).trans (congrArg Nat.succ ih)
    | error fault => exact congrArg Nat.succ ih

end Entry

namespace SuiteOutcome

/-- The outcome that holds entries in their order. -/
def ofEntries (entries : List (Entry α)) : SuiteOutcome α :=
  ⟨entries.filterMap Entry.record, entries.filterMap Entry.failure⟩

/-- Outcomes with the same records and the same failures, in any order. -/
structure Perm (o other : SuiteOutcome α) : Prop where
  records : o.records.Perm other.records
  failures : o.failures.Perm other.failures

/-- Entries in another order give the same records and failures in another order. -/
theorem perm_ofEntries {entries others : List (Entry α)} (permuted : entries.Perm others) :
    (ofEntries entries).Perm (ofEntries others) := by
  constructor
  case records => exact permuted.filterMap Entry.record
  case failures => exact permuted.filterMap Entry.failure

end SuiteOutcome

/-! ### Requests one after another -/

/-- The entries of requests; each one starts in the state that the one before it leaves. -/
def entriesOf : List (Request σ α) → σ → List (Entry α)
  | [], _ => []
  | r :: rest, state => ⟨r.name, (r.cost.run state).1⟩ :: entriesOf rest (r.cost.run state).2

/-- Every request has one entry, in the order of the requests. -/
theorem map_name_entriesOf (requests : List (Request σ α)) (state : σ) :
    (entriesOf requests state).map (·.name) = requests.map (·.name) := by
  induction requests generalizing state with
  | nil => rfl
  | cons r rest ih => exact congrArg (r.name :: ·) (ih _)

/-- A run adds the entries of its requests to what is already there. -/
theorem runSuiteFrom_eq (o : SuiteOutcome α) (requests : List (Request σ α)) (state : σ) :
    (runSuiteFrom o requests state).1 = o.extend (.ofEntries (entriesOf requests state)) := by
  induction requests generalizing o state with
  | nil =>
    rw [entriesOf, SuiteOutcome.ofEntries, SuiteOutcome.extend, List.filterMap_nil, List.filterMap_nil,
      List.append_nil, List.append_nil]
    rfl
  | cons r rest ih =>
    rw [runSuiteFrom_cons, ih, entriesOf]
    cases (r.cost.run state).1 with
    | ok record =>
      rw [SuiteOutcome.add, SuiteOutcome.extend, List.append_assoc]
      rfl
    | error fault =>
      rw [SuiteOutcome.add, SuiteOutcome.extend, List.append_assoc]
      rfl

/-- Requests whose costs do not depend on the state have the entries that they have by themselves. -/
theorem entriesOf_eq_map {requests : List (Request σ α)}
    (steady : ∀ r ∈ requests, r.cost.Agree (fun _ _ => True) r.cost) (state alone : σ) :
    entriesOf requests state = requests.map fun r => ⟨r.name, (r.cost.run alone).1⟩ := by
  induction requests generalizing state with
  | nil => rfl
  | cons r rest ih =>
    obtain ⟨first, others⟩ := List.forall_mem_cons.1 steady
    rw [entriesOf, List.map_cons, ih others, (first state alone trivial).1]

/-! ### Lookups -/

namespace Registry

/-- A lookup only asks whether the template is listed. -/
theorem lookup_congr {registry other : Registry} (same : registry.templates.Perm other.templates)
    (name : String) : registry.lookup name = other.lookup name := by
  rw [lookup, lookup]
  cases Template.named name with
  | error fault => rfl
  | ok t =>
    by_cases listed : t ∈ registry.templates
    · exact (if_pos listed).trans (if_pos (same.mem_iff.1 listed)).symm
    · exact (if_neg listed).trans (if_neg (mt same.mem_iff.2 listed)).symm

/-- The names that a calibration of templates goes through: all listed ones, where none is asked for. -/
def requested (registry : Registry) (names : List String) : List String :=
  if names.isEmpty then registry.templates.map (·.name) else names

theorem perm_requested {registry other : Registry} (same : registry.templates.Perm other.templates)
    {names others : List String} (permuted : names.Perm others) :
    (registry.requested names).Perm (other.requested others) := by
  have emptied : names.isEmpty = others.isEmpty := by
    rw [Bool.eq_iff_iff, List.isEmpty_iff, List.isEmpty_iff]
    constructor
    · rintro rfl
      exact permuted.nil_eq.symm
    · rintro rfl
      exact permuted.eq_nil
  rw [requested, requested, emptied]
  split
  · exact same.map _
  · exact permuted

end Registry

/-! ### Suites -/

/-- A run of several benchmarks: of named templates, of kernels, or of fixed-size programs. -/
inductive Suite (α : Type) where
  | templates (registry : Registry) (names : List String)
  | kernels (specs : List KernelSpec)
  | fixed (manifest : FixedManifest α)

namespace Suite

/-- The names that a suite is asked for. -/
def names : Suite α → List String
  | templates registry names => registry.requested names
  | kernels specs => specs.map (·.name)
  | fixed manifest => manifest.workloads.map (·.name)

/-- Suites that ask for the same benchmarks in another order. -/
inductive Permuted : Suite α → Suite α → Prop where
  | templates {registry other : Registry} {names others : List String} :
      registry.templates.Perm other.templates → names.Perm others →
        Permuted (.templates registry names) (.templates other others)
  | kernels {specs others : List KernelSpec} : specs.Perm others → Permuted (.kernels specs) (.kernels others)
  | fixed {manifest other : FixedManifest α} : manifest.workloads.Perm other.workloads →
      Permuted (.fixed manifest) (.fixed other)

variable [Scalar α]

/-- The run of a suite. -/
def run (m : Machine σ) (s : Settings α) : Suite α → StateM σ (SuiteOutcome α)
  | templates registry names => calibrateTemplates m s registry names
  | kernels specs => calibrateKernels m s specs
  | fixed manifest => estimateFixed m s manifest

/-- The requests of a suite. -/
def requests (m : Machine σ) (s : Settings α) : Suite α → List (Request σ α)
  | templates registry names => templateRequests m s registry names
  | kernels specs => specs.map fun k => ⟨k.name, k.calibrate m s⟩
  | fixed manifest => manifest.workloads.map fun w => ⟨w.name, w.estimate m s⟩

/-- What each benchmark of a suite comes to by itself from a state of the machine. -/
def alone (m : Machine σ) (s : Settings α) (state : σ) : Suite α → List (Entry α)
  | templates registry names => (registry.requested names).map fun name =>
      ⟨name, registry.lookup name >>= fun t => ((t.calibrate m s).run state).1⟩
  | kernels specs => specs.map fun k => ⟨k.name, ((k.calibrate m s).run state).1⟩
  | fixed manifest => manifest.workloads.map fun w => ⟨w.name, ((w.estimate m s).run state).1⟩

/-- A suite's outcome is read off the entries of its requests. -/
theorem run_eq (m : Machine σ) (s : Settings α) (suite : Suite α) (state : σ) :
    (suite.run m s state).1 = .ofEntries (entriesOf (suite.requests m s) state) := by
  cases suite with
  | templates registry names => exact runSuiteFrom_eq .empty _ state
  | kernels specs => exact runSuiteFrom_eq .empty _ state
  | fixed manifest => exact runSuiteFrom_eq .empty _ state

theorem map_name_requests (m : Machine σ) (s : Settings α) (suite : Suite α) :
    (suite.requests m s).map (·.name) = suite.names := by
  cases suite with
  | templates registry names =>
    rw [requests, templateRequests, Suite.names, Registry.requested]
    split
    · exact List.map_map
    · exact List.map_map.trans (List.map_id _)
  | kernels specs => exact List.map_map
  | fixed manifest => exact List.map_map

/-- The cost of a request is the same on machines that cannot be told apart. -/
theorem agree_of_mem_requests {m : Machine σ} {R : σ → σ → Prop} (h : m.Agree R m) (s : Settings α)
    {suite : Suite α} : ∀ r ∈ suite.requests m s, r.cost.Agree R r.cost := by
  intro r member
  cases suite with
  | templates registry names =>
    rw [requests, templateRequests] at member
    split at member
    · obtain ⟨t, -, rfl⟩ := List.mem_map.1 member
      exact t.calibrate_agree h s
    · obtain ⟨name, -, rfl⟩ := List.mem_map.1 member
      apply (Act.Agree.ofResult _).bind
      intro t
      exact t.calibrate_agree h s
  | kernels specs =>
    obtain ⟨k, -, rfl⟩ := List.mem_map.1 member
    exact k.calibrate_agree h s
  | fixed manifest =>
    obtain ⟨w, -, rfl⟩ := List.mem_map.1 member
    exact w.estimate_agree h s

/-- A request that is answered by itself has the entry of its benchmark. -/
theorem map_requests (m : Machine σ) (s : Settings α) (suite : Suite α) (state : σ) :
    (suite.requests m s).map (fun r => (⟨r.name, (r.cost.run state).1⟩ : Entry α)) =
      suite.alone m s state := by
  cases suite with
  | templates registry names =>
    rw [requests, templateRequests, alone, Registry.requested]
    split
    · rw [List.map_map, List.map_map]
      apply List.map_congr_left
      intro t listed
      change (⟨t.name, ((t.calibrate m s).run state).1⟩ : Entry α) = ⟨t.name, _⟩
      rw [Registry.lookup_name listed]
      rfl
    · rw [List.map_map]
      apply List.map_congr_left
      intro name _
      change (⟨name, ((Act.ofResult (registry.lookup name) >>= _).run state).1⟩ : Entry α) = _
      rw [Act.outcome_bind]
      rfl
  | kernels specs => exact List.map_map
  | fixed manifest => exact List.map_map

/-- Benchmarks run alone give the same entries in whatever order they are named. -/
theorem perm_alone (m : Machine σ) (s : Settings α) (state : σ) {suite other : Suite α}
    (permuted : suite.Permuted other) : (suite.alone m s state).Perm (other.alone m s state) := by
  cases permuted with
  | @templates registry registry' names others same permuted =>
    have lookup : registry.lookup = registry'.lookup := funext (Registry.lookup_congr same)
    rw [alone, alone, lookup]
    exact (Registry.perm_requested same permuted).map _
  | kernels permuted => exact permuted.map _
  | fixed permuted => exact permuted.map _

/-- A suite has one entry for each request, a record or a failure under the requested name, in the order of
    the requests. On a machine without a memory the entry is what the benchmark comes to by itself, and
    suites that ask for the same in another order have the same records and failures in another order. -/
theorem benchmarks_are_isolated (m : Machine σ) (s : Settings α) (suite : Suite α) (state : σ) :
    ∃ entries : List (Entry α), (suite.run m s state).1 = .ofEntries entries ∧
      entries = entriesOf (suite.requests m s) state ∧
      entries.map (·.name) = suite.names ∧
      (suite.run m s state).1.records.length + (suite.run m s state).1.failures.length =
        suite.names.length ∧
      (m.Memoryless → (∀ start, entries = suite.alone m s start) ∧
        ∀ other, suite.Permuted other → ∀ start,
          (suite.run m s state).1.Perm (other.run m s start).1) := by
  have named := (map_name_entriesOf (suite.requests m s) state).trans (map_name_requests m s suite)
  have each (memoryless : m.Memoryless) (suite : Suite α) (state start : σ) :
      entriesOf (suite.requests m s) state = suite.alone m s start := by
    rw [entriesOf_eq_map (agree_of_mem_requests memoryless.agree s) state start, map_requests]
  refine ⟨_, run_eq m s suite state, rfl, named, ?total, ?isolated⟩
  case total =>
    rw [run_eq, SuiteOutcome.ofEntries, Entry.length_records_add_failures, ← named, List.length_map]
  case isolated =>
    intro memoryless
    refine ⟨each memoryless suite state, ?_⟩
    intro other permuted start
    rw [run_eq, run_eq, each memoryless suite state start, each memoryless other start start]
    exact SuiteOutcome.perm_ofEntries (perm_alone m s start permuted)

/-- An unknown name before or behind a known one in capitals. -/
theorem benchmarks_are_isolated_unknown : ∃ record : BenchmarkRecord ℚ,
    let m := Machine.paced fun _ => ⟨5000000⟩
    let s := Template.quickSettings
    ((Template.dependency.calibrate m s).run 0).1 = .ok record ∧
    ((Suite.templates .standard ["nope", "DEPENDENCY"]).run m s 7).1 =
      ⟨[record], [⟨"nope", "unknown workload template: nope"⟩]⟩ ∧
    ((Suite.templates .standard ["DEPENDENCY", "nope"]).run m s 3).1.records = [record] := by
  obtain ⟨record, done⟩ := Template.exists_paced_record fun _ => ⟨5000000⟩
  have memoryless : (Machine.paced fun _ => ⟨5000000⟩).Memoryless :=
    ⟨fun _ _ _ => rfl, fun _ _ _ _ => rfl, fun _ _ _ => rfl, fun _ _ _ _ => rfl⟩
  obtain ⟨entries, outcome, -, -, -, isolated⟩ := benchmarks_are_isolated (Machine.paced fun _ => ⟨5000000⟩)
    Template.quickSettings (.templates .standard ["nope", "DEPENDENCY"]) 7
  obtain ⟨each, permuted⟩ := isolated memoryless
  have unknown : Template.all.find? (fun t => equalIgnoringCase t.name "nope") = none := by decide
  have known : Template.all.find? (fun t => equalIgnoringCase t.name "DEPENDENCY") = some .dependency := by
    decide
  have missed : Registry.standard.lookup "nope" = .error (.unknownTemplate "nope") := by
    rw [Registry.lookup, Template.named, unknown]
    rfl
  have found : Registry.standard.lookup "DEPENDENCY" = .ok .dependency := by
    rw [Registry.lookup, Template.named, known]
    rfl
  have both : entries = [⟨"nope", .error (.unknownTemplate "nope")⟩, ⟨"DEPENDENCY", .ok record⟩] := by
    rw [each 0, alone, Registry.requested, if_neg (by decide), List.map_cons, List.map_singleton, missed,
      found, ← done]
    rfl
  rw [both] at outcome
  have swapped := (permuted _ (.templates (.refl _) (.swap _ _ _)) 3).records
  rw [outcome] at swapped
  exact ⟨record, done, outcome, List.perm_singleton.1 swapped.symm⟩

end Suite

end CycleCost
