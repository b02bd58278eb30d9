/-
Module: CycleCost.Proofs.Report.Algebra
Purpose: Merging as an operation. Two merges in a row are one merge of the runs merged into each other, a run
  that is merged again changes nothing, and runs about different benchmarks can be merged in either order.
  The names that the second run takes from the first stand in the second run again, so the union of the
  names decides what is kept.
Main exports: CalibrationReport.holding, CalibrationReport.mentions_merge, CalibrationReport.merge_merge,
  CalibrationReport.merge_self, Tally.of_perm, CalibrationReport.merges_compose
-/
import CycleCost.Proofs.Report.Merge

namespace CycleCost

variable {α : Type}

/-- A tally does not depend on the order of the entries. -/
theorem Tally.of_perm {records others : List (BenchmarkRecord α)} {failures rest : List BenchmarkFailure}
    (recorded : records.Perm others) (failed : failures.Perm rest) :
    Tally.of records failures = Tally.of others rest := by
  simp only [Tally.of, (recorded.filter _).length_eq, recorded.length_eq, failed.length_eq]

theorem SuiteOutcome.mentions_of_record {o : SuiteOutcome α} {r : BenchmarkRecord α}
    (member : r ∈ o.records) : o.mentions r.name :=
  mentions_iff.2 (List.mem_append_left _ (List.mem_map_of_mem member))

theorem SuiteOutcome.mentions_of_failure {o : SuiteOutcome α} {f : BenchmarkFailure}
    (member : f ∈ o.failures) : o.mentions f.name :=
  mentions_iff.2 (List.mem_append_right _ (List.mem_map_of_mem member))

/-- Runs that say nothing about the same benchmark. -/
def SuiteOutcome.Apart (o other : SuiteOutcome α) : Prop :=
  ∀ name, o.mentions name → other.mentions name = false

theorem SuiteOutcome.Apart.symm {o other : SuiteOutcome α} (apart : o.Apart other) : other.Apart o := by
  intro name said
  rw [Bool.eq_false_iff]
  intro also
  rw [apart name also] at said
  cases said

namespace CalibrationReport

/-- A report with the entries of a run and no others. -/
def holding (report : CalibrationReport α) (o : SuiteOutcome α) : CalibrationReport α :=
  { report with results := o.records, failures := o.failures, summary := o.tally }

theorem outcome_holding (report : CalibrationReport α) (o : SuiteOutcome α) :
    (report.holding o).outcome = o := rfl

/-! ### Two merges as one -/

/-- A merged report mentions what the report or the outcome mentions. -/
theorem mentions_merge (report : CalibrationReport α) (o : SuiteOutcome α) (name : String) :
    (report.merge o.records o.failures).outcome.mentions name =
      (report.outcome.mentions name || o.mentions name) := by
  rw [Bool.eq_iff_iff, Bool.or_eq_true, SuiteOutcome.mentions_iff, (names_merge report o).mem_iff,
    List.mem_append, List.mem_filter, SuiteOutcome.mentions_iff, SuiteOutcome.mentions_iff]
  by_cases said : o.mentions name
  · have member := SuiteOutcome.mentions_iff.1 said
    simp [member]
  · simp [said]

/-- Entries kept by one rule after another, each followed by new entries, are the old ones that both rules
    keep followed by the new ones. -/
theorem keep_keep {β : Type} (first second both : β → Bool) (agree : ∀ e, both e = (first e || second e))
    (old new newest : List β) :
    (old.filter (fun e => !first e) ++ new).filter (fun e => !second e) ++ newest =
      old.filter (fun e => !both e) ++ (new.filter (fun e => !second e) ++ newest) := by
  have kept : (old.filter fun e => !first e).filter (fun e => !second e) =
      old.filter fun e => !both e := by
    rw [List.filter_filter]
    apply List.filter_congr
    intro e _
    rw [agree e, Bool.not_or, Bool.and_comm]
  rw [List.filter_append, kept, List.append_assoc]

/-- Two reports with the same header, the same entries and counted entries are equal. -/
theorem eq_of_outcome {a b : CalibrationReport α} (run : a.run = b.run)
    (methodology : a.methodology = b.methodology) (formula : a.formula = b.formula)
    (clock : a.frequencyGhz = b.frequencyGhz) (entries : a.outcome = b.outcome)
    (left : a.summary = Tally.of a.results a.failures)
    (right : b.summary = Tally.of b.results b.failures) : a = b := by
  obtain ⟨recorded, failed⟩ := SuiteOutcome.mk.inj entries
  have summary : a.summary = b.summary := by rw [left, right, recorded, failed]
  cases a
  cases b
  simp_all

/-- Merging a run and then a later one is merging, once, the later run merged into the earlier. -/
theorem merge_merge (report base : CalibrationReport α) (first second : SuiteOutcome α) :
    (report.merge first.records first.failures).merge second.records second.failures =
      report.merge ((base.holding first).merge second.records second.failures).results
        ((base.holding first).merge second.records second.failures).failures := by
  let both := ((base.holding first).merge second.records second.failures).outcome
  have agree (name : String) : both.mentions name = (first.mentions name || second.mentions name) := by
    rw [mentions_merge, outcome_holding]
  have recorded := keep_keep (fun r : BenchmarkRecord α => first.mentions r.name)
    (fun r => second.mentions r.name) (fun r => both.mentions r.name) (fun r => agree r.name)
    report.results first.records second.records
  have failed := keep_keep (fun f : BenchmarkFailure => first.mentions f.name)
    (fun f => second.mentions f.name) (fun f => both.mentions f.name) (fun f => agree f.name)
    report.failures first.failures second.failures
  exact eq_of_outcome rfl rfl rfl rfl ((SuiteOutcome.mk.injEq ..).mpr ⟨recorded, failed⟩) rfl rfl

/-- A run merged into a report that holds just this run leaves its entries as they are. -/
theorem merge_holding_self (report : CalibrationReport α) (o : SuiteOutcome α) :
    ((report.holding o).merge o.records o.failures).outcome = o := by
  have recorded : o.records.filter (fun r => !o.mentions r.name) = [] := by
    rw [List.filter_eq_nil_iff]
    intro r member
    simp [SuiteOutcome.mentions_of_record member]
  have failed : o.failures.filter (fun f => !o.mentions f.name) = [] := by
    rw [List.filter_eq_nil_iff]
    intro f member
    simp [SuiteOutcome.mentions_of_failure member]
  have written : ((report.holding o).merge o.records o.failures).outcome =
      ⟨o.records.filter (fun r => !o.mentions r.name) ++ o.records,
        o.failures.filter (fun f => !o.mentions f.name) ++ o.failures⟩ := rfl
  rw [written, recorded, failed]
  rfl

/-- Merging the same outcome again changes nothing. -/
theorem merge_self (report : CalibrationReport α) (o : SuiteOutcome α) :
    (report.merge o.records o.failures).merge o.records o.failures =
      report.merge o.records o.failures := by
  obtain ⟨recorded, failed⟩ := SuiteOutcome.mk.inj (report.merge_holding_self o)
  rw [merge_merge report report o o, recorded, failed]

/-! ### Runs about different benchmarks -/

section

variable {first second : SuiteOutcome α}

/-- Outcomes about different benchmarks can be merged in either order, for each benchmark. -/
theorem about_merge_comm (report : CalibrationReport α) (apart : first.Apart second)
    (name : String) :
    ((report.merge first.records first.failures).merge second.records second.failures).outcome.about name =
      ((report.merge second.records second.failures).merge first.records
        first.failures).outcome.about name := by
  rw [about_merge, about_merge, about_merge, about_merge]
  by_cases early : first.mentions name
  · simp [early, apart name early]
  · rw [if_neg early, if_neg early]

/-- What one run adds is kept whole by a run about other benchmarks, so only the order of the new entries
    differs. -/
theorem keep_comm {β : Type} (inFirst inSecond : β → Bool) (old : List β) {new newest : List β}
    (newKept : ∀ e ∈ new, inSecond e = false) (newestKept : ∀ e ∈ newest, inFirst e = false) :
    ((old.filter (fun e => !inFirst e) ++ new).filter (fun e => !inSecond e) ++ newest).Perm
      ((old.filter (fun e => !inSecond e) ++ newest).filter (fun e => !inFirst e) ++ new) := by
  have whole : new.filter (fun e => !inSecond e) = new := by
    rw [List.filter_eq_self]
    intro e member
    rw [newKept e member, Bool.not_false]
  have wholeNewest : newest.filter (fun e => !inFirst e) = newest := by
    rw [List.filter_eq_self]
    intro e member
    rw [newestKept e member, Bool.not_false]
  rw [keep_keep inFirst inSecond (fun e => inFirst e || inSecond e) (fun _ => rfl),
    keep_keep inSecond inFirst (fun e => inFirst e || inSecond e) (fun _ => Bool.or_comm _ _),
    whole, wholeNewest]
  exact List.perm_append_comm.append_left _

/-- Outcomes about different benchmarks give the same summary in either order. -/
theorem summary_merge_comm (report : CalibrationReport α) (apart : first.Apart second) :
    ((report.merge first.records first.failures).merge second.records second.failures).summary =
      ((report.merge second.records second.failures).merge first.records first.failures).summary := by
  apply Tally.of_perm
  · exact keep_comm (fun r : BenchmarkRecord α => first.mentions r.name) (fun r => second.mentions r.name) _
      (fun r member => apart r.name (SuiteOutcome.mentions_of_record member))
      (fun r member => apart.symm r.name (SuiteOutcome.mentions_of_record member))
  · exact keep_comm (fun f : BenchmarkFailure => first.mentions f.name) (fun f => second.mentions f.name) _
      (fun f member => apart f.name (SuiteOutcome.mentions_of_failure member))
      (fun f member => apart.symm f.name (SuiteOutcome.mentions_of_failure member))

end

/-- Merges compose: a run and a later one are one run, a run merged twice counts once, and the order of two
    runs does not matter to the entries of any benchmark nor to the summary when the runs share no name. -/
theorem merges_compose (report base : CalibrationReport α) (first second : SuiteOutcome α) :
    report.mergeAll [first, second] =
      report.mergeAll [((base.holding first).mergeAll [second]).outcome] ∧
    report.mergeAll [first, first] = report.mergeAll [first] ∧
    (first.Apart second →
      (∀ name, (report.mergeAll [first, second]).outcome.about name =
        (report.mergeAll [second, first]).outcome.about name) ∧
      (report.mergeAll [first, second]).summary = (report.mergeAll [second, first]).summary) :=
  ⟨report.merge_merge base first second, report.merge_self first,
    fun apart => ⟨report.about_merge_comm apart, report.summary_merge_comm apart⟩⟩

/-- The cost of one benchmark and the failure of another: merged in either order they leave the same entries
    and the same summary, in another order of the costs. -/
theorem merges_compose_later :
    let costs : SuiteOutcome Nat := ⟨[oneCycle "atax"], []⟩
    let failures : SuiteOutcome Nat := ⟨[oneCycle "bicg"], [⟨"mvt", "no timing samples to reduce"⟩]⟩
    costs.Apart failures ∧
    (∀ name, (outdated.mergeAll [costs, failures]).outcome.about name =
      (outdated.mergeAll [failures, costs]).outcome.about name) ∧
    (outdated.mergeAll [failures, costs]).summary = ⟨0, 3, 1⟩ ∧
    (outdated.mergeAll [costs, failures]).outcome.names = ["gemm", "atax", "bicg", "mvt"] ∧
    (outdated.mergeAll [failures, costs]).outcome.names = ["gemm", "bicg", "atax", "mvt"] := by
  intro costs failures
  have apart : costs.Apart failures := by
    intro name said
    have isAtax : name = "atax" := by
      simpa [SuiteOutcome.mentions_iff, SuiteOutcome.names, costs, oneCycle] using said
    rw [isAtax]
    decide
  obtain ⟨-, -, commute⟩ := outdated.merges_compose outdated costs failures
  obtain ⟨entries, summary⟩ := commute apart
  refine ⟨apart, entries, ?_, by decide, by decide⟩
  rw [← summary]
  rfl

end CalibrationReport

end CycleCost
