/-
Module: CycleCost.Proofs.Report.Merge
Purpose: What a report holds after any history of merges. The last run that says anything about a benchmark
  decides everything that the report says about it, be it a record or a failure; a benchmark that no run
  mentions keeps its old entries. The step lemma is about one merge and one name, and the history follows by
  induction.
Main exports: SuiteOutcome.mentions, SuiteOutcome.about, SuiteOutcome.names, CalibrationReport.mergeAll,
  CalibrationReport.about_merge, CalibrationReport.names_merge, CalibrationReport.last_mention_wins
-/
import CycleCost.Calibration.Suite
import CycleCost.Report.Calibration

namespace CycleCost

variable {α : Type}

/-! ### What is said about one benchmark -/

namespace SuiteOutcome

/-- Whether a run says anything about a benchmark. -/
def mentions (o : SuiteOutcome α) (name : String) : Bool := CycleCost.mentions o.records o.failures name

/-- Everything that a run says about a benchmark. -/
def about (o : SuiteOutcome α) (name : String) : SuiteOutcome α :=
  ⟨o.records.filter (·.name == name), o.failures.filter (·.name == name)⟩

/-- The benchmarks of a run: those with a record, then those with a failure. -/
def names (o : SuiteOutcome α) : List String := o.records.map (·.name) ++ o.failures.map (·.name)

/-- An outcome mentions the names of its records and of its failures. -/
theorem mentions_iff {o : SuiteOutcome α} {name : String} : o.mentions name ↔ name ∈ o.names := by
  simp [mentions, CycleCost.mentions, names]

end SuiteOutcome

namespace CalibrationReport

/-- The entries of a report, as a run would give them. -/
def outcome (report : CalibrationReport α) : SuiteOutcome α := ⟨report.results, report.failures⟩

/-- A report after runs that are folded into it one after another. -/
def mergeAll (report : CalibrationReport α) (history : List (SuiteOutcome α)) : CalibrationReport α :=
  history.foldl (fun r o => r.merge o.records o.failures) report

theorem mergeAll_cons (report : CalibrationReport α) (o : SuiteOutcome α) (rest : List (SuiteOutcome α)) :
    report.mergeAll (o :: rest) = (report.merge o.records o.failures).mergeAll rest := rfl

/-! ### One merge -/

/-- Of the entries that a rule on names keeps, those of one name are all of them or none. -/
theorem filter_name_filter {β : Type} (nameOf : β → String) (keeps : String → Bool) (name : String)
    (entries : List β) :
    (entries.filter fun e => keeps (nameOf e)).filter (nameOf · == name) =
      if keeps name then entries.filter (nameOf · == name) else [] := by
  rw [List.filter_filter]
  by_cases kept : keeps name = true
  · rw [if_pos kept]
    apply List.filter_congr
    intro e _
    by_cases same : nameOf e = name
    · simp [same, kept]
    · simp [same]
  · rw [if_neg kept, List.filter_eq_nil_iff]
    intro e _ both
    rcases Bool.and_eq_true_iff.1 both with ⟨same, keep⟩
    rw [eq_of_beq same] at keep
    exact kept keep

/-- An outcome that does not mention a benchmark holds nothing about it. -/
theorem about_eq_empty {o : SuiteOutcome α} {name : String} (silent : ¬ o.mentions name) :
    o.about name = .empty := by
  rw [SuiteOutcome.mentions_iff, SuiteOutcome.names, List.mem_append, not_or] at silent
  obtain ⟨unrecorded, unfailed⟩ := silent
  rw [SuiteOutcome.about, SuiteOutcome.empty, SuiteOutcome.mk.injEq, List.filter_eq_nil_iff,
    List.filter_eq_nil_iff]
  constructor
  · intro record member same
    exact unrecorded (List.mem_map.2 ⟨record, member, eq_of_beq same⟩)
  · intro failure member same
    exact unfailed (List.mem_map.2 ⟨failure, member, eq_of_beq same⟩)

/-- A merge replaces what was known of the benchmarks that the run mentions, and of no other. -/
theorem about_merge (report : CalibrationReport α) (o : SuiteOutcome α) (name : String) :
    (report.merge o.records o.failures).outcome.about name =
      if o.mentions name then o.about name else report.outcome.about name := by
  have split : (report.merge o.records o.failures).outcome.about name =
      ⟨(if !o.mentions name then report.results.filter (·.name == name) else []) ++
          o.records.filter (·.name == name),
        (if !o.mentions name then report.failures.filter (·.name == name) else []) ++
          o.failures.filter (·.name == name)⟩ := by
    rw [← filter_name_filter (·.name) (fun name => !o.mentions name) name report.results,
      ← filter_name_filter (·.name) (fun name => !o.mentions name) name report.failures,
      ← List.filter_append, ← List.filter_append]
    rfl
  rw [split]
  by_cases said : o.mentions name
  · simp [said, SuiteOutcome.about]
  · have nothing := about_eq_empty said
    simp only [SuiteOutcome.about, SuiteOutcome.empty, SuiteOutcome.mk.injEq] at nothing
    simp [said, nothing.1, nothing.2, SuiteOutcome.about, outcome]

/-- After a merge the report has the benchmarks that the run does not mention, and those of the run. -/
theorem names_merge (report : CalibrationReport α) (o : SuiteOutcome α) :
    (report.merge o.records o.failures).outcome.names.Perm
      (report.outcome.names.filter (fun name => !o.mentions name) ++ o.names) := by
  have recorded : (report.results.filter fun r => !o.mentions r.name).map (·.name) =
      (report.results.map (·.name)).filter (fun name => !o.mentions name) := by
    rw [List.filter_map]
    rfl
  have failed : (report.failures.filter fun f => !o.mentions f.name).map (·.name) =
      (report.failures.map (·.name)).filter (fun name => !o.mentions name) := by
    rw [List.filter_map]
    rfl
  have written : (report.merge o.records o.failures).outcome.names =
      ((report.results.filter fun r => !o.mentions r.name) ++ o.records).map (·.name) ++
        ((report.failures.filter fun f => !o.mentions f.name) ++ o.failures).map (·.name) := rfl
  rw [written, List.map_append, List.map_append, recorded, failed, SuiteOutcome.names,
    SuiteOutcome.names, List.filter_append, List.append_assoc, List.append_assoc]
  -- Only the records of the run and the kept failures have to change places.
  exact (List.perm_append_comm_assoc _ _ _).append_left _

theorem nodup_names_merge {report : CalibrationReport α} {o : SuiteOutcome α}
    (old : report.outcome.names.Nodup) (new : o.names.Nodup) :
    (report.merge o.records o.failures).outcome.names.Nodup := by
  rw [(names_merge report o).nodup_iff, List.nodup_append]
  refine ⟨old.filter _, new, ?_⟩
  intro name kept other said same
  have silent := (List.mem_filter.1 kept).2
  rw [same, SuiteOutcome.mentions_iff.2 said] at silent
  cases silent

/-! ### A history of merges -/

/-- What a report says about a benchmark after a history is what the last run said that mentions it. -/
theorem about_mergeAll (report : CalibrationReport α) (history : List (SuiteOutcome α)) (name : String) :
    (report.mergeAll history).outcome.about name =
      ((history.reverse.find? (·.mentions name)).getD report.outcome).about name := by
  induction history generalizing report with
  | nil => rfl
  | cons o rest ih =>
    rw [mergeAll_cons, ih, List.reverse_cons, List.find?_append]
    cases later : rest.reverse.find? (·.mentions name) with
    | some latest => rfl
    | none =>
      -- No later run mentions the benchmark, so this one decides.
      rw [Option.getD_none, about_merge, Option.none_or]
      by_cases said : o.mentions name
      · simp [said]
      · simp [said]

/-- A history of outcomes leaves every name once. -/
theorem nodup_names_mergeAll {report : CalibrationReport α} {history : List (SuiteOutcome α)}
    (old : report.outcome.names.Nodup) (new : ∀ o ∈ history, o.names.Nodup) :
    (report.mergeAll history).outcome.names.Nodup := by
  induction history generalizing report with
  | nil => exact old
  | cons o rest ih =>
    obtain ⟨first, others⟩ := List.forall_mem_cons.1 new
    rw [mergeAll_cons]
    exact ih (nodup_names_merge old first) others

/-- A history of outcomes leaves the header of the report as it is. -/
theorem header_mergeAll (report : CalibrationReport α) (history : List (SuiteOutcome α)) :
    (report.mergeAll history).run = report.run ∧
      (report.mergeAll history).methodology = report.methodology ∧
      (report.mergeAll history).formula = report.formula ∧
      (report.mergeAll history).frequencyGhz = report.frequencyGhz := by
  induction history generalizing report with
  | nil => exact ⟨rfl, rfl, rfl, rfl⟩
  | cons o rest ih =>
    rw [mergeAll_cons]
    exact ih _

/-- After at least one merge the summary counts the entries, whatever it said before. -/
theorem summary_mergeAll (report : CalibrationReport α) {history : List (SuiteOutcome α)}
    (ran : history ≠ []) :
    (report.mergeAll history).summary =
      Tally.of (report.mergeAll history).results (report.mergeAll history).failures := by
  induction history generalizing report with
  | nil => exact absurd rfl ran
  | cons o rest ih =>
    rw [mergeAll_cons]
    by_cases last : rest = []
    · rw [last]
      rfl
    · exact ih _ last

/-- The last run that mentions a benchmark decides all entries of it, a history recounts the summary and
    changes nothing else, and entries that were unique stay so. -/
theorem last_mention_wins (report : CalibrationReport α) {history : List (SuiteOutcome α)}
    (ran : history ≠ []) :
    (∀ name, (report.mergeAll history).outcome.about name =
      ((history.reverse.find? (·.mentions name)).getD report.outcome).about name) ∧
    (report.mergeAll history).summary =
      Tally.of (report.mergeAll history).results (report.mergeAll history).failures ∧
    ((report.mergeAll history).run = report.run ∧
      (report.mergeAll history).methodology = report.methodology ∧
      (report.mergeAll history).formula = report.formula ∧
      (report.mergeAll history).frequencyGhz = report.frequencyGhz) ∧
    (report.outcome.names.Nodup → (∀ o ∈ history, o.names.Nodup) →
      (report.mergeAll history).outcome.names.Nodup) :=
  ⟨report.about_mergeAll history, report.summary_mergeAll ran, report.header_mergeAll history,
    nodup_names_mergeAll⟩

/-- A supplied cost of one cycle in each instruction. -/
def oneCycle (name : String) : BenchmarkRecord Nat :=
  ⟨name, "", 20, 1, none, 1, some 1, 1, 1, .analytical, false, none, [], []⟩

/-- A report of two costs and a failure, whose summary is wrong. -/
def outdated : CalibrationReport Nat :=
  ⟨⟨schemaVersion, toolVersion, "quick", 0, "unix:0", none⟩, CycleCost.methodology, CycleCost.formula, 1,
    [oneCycle "mvt", oneCycle "gemm"], ⟨7, 0, 0⟩, [⟨"atax", "build failed"⟩]⟩

/-- Two later runs: one costs what had failed, the other fails on what had a cost. -/
def laterRuns : List (SuiteOutcome Nat) :=
  [⟨[oneCycle "atax"], []⟩, ⟨[], [⟨"mvt", "no timing samples to reduce"⟩]⟩]

/-- A cost takes the place of an old failure and a failure that of an old cost; the rest is kept. -/
theorem last_mention_wins_outdated :
    (outdated.mergeAll laterRuns).outcome.about "mvt" = ⟨[], [⟨"mvt", "no timing samples to reduce"⟩]⟩ ∧
    (outdated.mergeAll laterRuns).outcome.about "atax" = ⟨[oneCycle "atax"], []⟩ ∧
    (outdated.mergeAll laterRuns).outcome.about "gemm" = ⟨[oneCycle "gemm"], []⟩ ∧
    (outdated.mergeAll laterRuns).summary = ⟨0, 2, 1⟩ ∧
    (outdated.mergeAll laterRuns).outcome.names.Nodup := by
  have wins := outdated.last_mention_wins (show laterRuns ≠ [] from List.cons_ne_nil _ _)
  obtain ⟨entries, summary, -, unique⟩ := wins
  refine ⟨?mvt, ?atax, ?gemm, ?summary, ?unique⟩
  case mvt =>
    rw [entries "mvt"]
    rfl
  case atax =>
    rw [entries "atax"]
    rfl
  case gemm =>
    rw [entries "gemm"]
    rfl
  case summary =>
    rw [summary]
    rfl
  case unique =>
    apply unique
    · decide
    · decide

end CalibrationReport

end CycleCost
