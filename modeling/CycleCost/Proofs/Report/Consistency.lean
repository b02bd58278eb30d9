/-
Module: CycleCost.Proofs.Report.Consistency
Purpose: Whether a written accuracy report agrees with itself. A summary counts the errors that were computed;
  a text has null for an error that is beyond the floats. The two agree exactly when the mean of the errors
  is finite, because a sum is finite only when all of its terms are.
Main exports: Accuracy.finite_of_meanError, AccuracyReport.SelfConsistent, AccuracyReport.plain_write,
  AccuracyReport.selfConsistent_iff, AccuracyReport.exists_seen, written_report_agrees_iff
-/
import CycleCost.Proofs.Accuracy.Summary
import CycleCost.Proofs.Arithmetic.Float
import CycleCost.Proofs.Report.Persistence

namespace CycleCost

open Document Json

namespace Accuracy

/-! ### Which errors are finite -/

section

variable {α : Type} [Scalar α]

/-- An error is computed from the two latencies that its record shows, and both are usable. -/
theorem exists_latencies_of_error {real : String → Option (Metric α)} {predictions : List (Prediction α)}
    {defaultFrequencyGhz : α} {r : Record α} (there : r ∈ evaluate real predictions defaultFrequencyGhz)
    {e : α} (computed : r.error = some e) :
    ∃ simulated measured, r.simulatedLatencyNs = some simulated ∧ r.realLatencyNs = some measured ∧
      Scalar.finitePositive simulated ∧ Scalar.finitePositive measured ∧
      Scalar.magnitude (simulated - measured) / Scalar.smaller simulated measured = e := by
  obtain ⟨p, -, rfl⟩ := List.mem_map.1 there
  unfold score at computed ⊢
  cases priced : p.metric defaultFrequencyGhz with
  | error fault => simp [priced, Record.undefined] at computed
  | ok simulated =>
    cases known : real p.name with
    | none => simp [priced, known, Record.undefined] at computed
    | some measured =>
      cases distance : relativeError simulated.latencyNs measured.latencyNs with
      | error fault => simp [priced, known, compare_eq_error distance, Record.undefined] at computed
      | ok found =>
        simp only [priced, known, compare_eq_ok distance, Option.some.injEq] at computed ⊢
        subst computed
        exact ⟨_, _, rfl, rfl, relativeError_eq_ok_iff.1 distance⟩

end

/-- A sum is finite only when all of its terms are. -/
theorem finite_of_foldl {xs : List Float} {start : Float} (finite : (xs.foldl (· + ·) start).isFinite) :
    ∀ x ∈ xs, x.isFinite := by
  have all : start.isFinite ∧ ∀ x ∈ xs, x.isFinite := by
    induction xs generalizing start with
    | nil => exact ⟨finite, nofun⟩
    | cons x xs ih =>
      obtain ⟨sum, others⟩ := ih finite
      obtain ⟨first, second⟩ := isFinite_of_add sum
      exact ⟨first, List.forall_mem_cons.2 ⟨second, others⟩⟩
  exact all.2

/-- Where the mean is finite, every error is. -/
theorem finite_of_meanError {records : List (Record Float)}
    (finite : ∀ mean, (summarize records).meanError = some mean → mean.isFinite) :
    ∀ e ∈ errors records, e.isFinite := by
  intro e member
  have counted : (summarize records).count ≠ 0 := by
    rw [count_eq_length_errors]
    exact (List.length_pos_of_mem member).ne'
  have mean := finite _ (meanError_eq_some_iff.2 ⟨counted, rfl⟩)
  exact finite_of_foldl (isFinite_of_div mean) e member

end Accuracy

namespace Document

/-! ### Numbers that may be absent -/

/-- The member of a table under a name. -/
def member (name : String) : Datum → Option Datum
  | .table members => lookup members name
  | _ => none

/-- Whether there is a member and it is null. -/
def isNull : Option Datum → Bool
  | some .null => true
  | _ => false

namespace Json

variable {parse : Parser} {write : Datum → String}

theorem isSome_of_isNumber {d : Option Datum} (number : isNumber d) : d.isSome := by
  cases d with
  | none => cases number
  | some _ => rfl

theorem isNull_of_isNumber {d : Option Datum} (number : isNumber d) : isNull d = false := by
  unfold isNumber at number
  split at number
  · rfl
  · rfl
  · cases number

/-- A faithful reader finds null where null was written. -/
theorem Faithful.found_null (faithful : Faithful parse write) : found parse write .null = .null := by
  rw [found, faithful.null, Option.getD_some]

/-- A faithful reader finds the integers of 64 bits. -/
theorem Faithful.found_integer (faithful : Faithful parse write) {n : Nat} (small : n < UInt64.size) :
    found parse write (.integer n) = .integer n := by
  rw [found, faithful.integer (by simp) (by omega), Option.getD_some]

/-- A float that is not finite is found as null. -/
theorem Faithful.found_real (faithful : Faithful parse write) {x : Float} (infinite : x.isFinite = false) :
    found parse write (.real x) = .null := by
  rw [found, faithful.notFinite infinite, faithful.null, Option.getD_some]

/-- What a parser finds of a number that may be absent. -/
def told (parse : Parser) (write : Datum → String) (x : Option Float) : Option Datum :=
  some ((Form.real.optional.write x).mapScalars (found parse write))

/-- It is null, unless the number is there and finite. -/
theorem Faithful.isNumber_told (faithful : Faithful parse write) {x : Option Float}
    (tells : ∀ y, x = some y → y.isFinite → isNumber (parse (write (.real y)))) :
    isNumber (told parse write x) = x.any Float.isFinite ∧ isNull (told parse write x) = !x.any Float.isFinite := by
  cases x with
  | none =>
    change isNumber (some (found parse write .null)) = false ∧ isNull (some (found parse write .null)) = true
    rw [faithful.found_null]
    exact ⟨rfl, rfl⟩
  | some y =>
    change isNumber (some (found parse write (.real y))) = y.isFinite ∧
      isNull (some (found parse write (.real y))) = !y.isFinite
    cases finite : y.isFinite with
    | false =>
      rw [faithful.found_real finite]
      exact ⟨rfl, rfl⟩
    | true =>
      have number := tells y rfl finite
      cases read : parse (write (.real y)) with
      | none =>
        rw [read] at number
        cases number
      | some d =>
        rw [read] at number
        rw [found, read, Option.getD_some]
        exact ⟨number, isNull_of_isNumber number⟩

end Json

end Document

/-! ### Reports in a text -/

namespace Accuracy

theorem write_record (r : Record Float) : Record.form.write r = .table (
    [("name", .text r.name), ("sim_cpi", Form.real.optional.write r.simulatedCpi),
      ("real_cpi", Form.real.optional.write r.realCpi),
      ("sim_latency_ns", Form.real.optional.write r.simulatedLatencyNs),
      ("real_latency_ns", Form.real.optional.write r.realLatencyNs),
      ("error", Form.real.optional.write r.error), ("calibrated", .bool r.calibrated)] ++
    if r.note.isNone then [] else [("note", Form.text.optional.write r.note)]) := rfl

theorem write_summary (s : Summary Float) : Summary.form.write s = .table
    [("count", .integer s.count), ("undefined", .integer s.undefined),
      ("calibrated_count", .integer s.calibratedCount),
      ("mean_error", Form.real.optional.write s.meanError),
      ("max_error", Form.real.optional.write s.maxError),
      ("min_error", Form.real.optional.write s.minError)] := rfl

theorem plain_optional {height : Nat} (x : Option Float) :
    Plain (fun _ => True) height (Form.real.optional.write x) := by
  cases x with
  | none => exact .null
  | some y => exact .real trivial

theorem plain_record (r : Record Float) : Plain (fun _ => True) 1 (Record.form.write r) := by
  rw [write_record]
  refine .table ?_
  simp only [List.cons_append, List.nil_append, List.forall_mem_cons, plain_optional, true_and]
  refine ⟨.text _, .bool _, ?_⟩
  cases r.note with
  | none => exact List.forall_mem_nil _
  | some s => exact List.forall_mem_singleton.2 (.text s)

/-- No count of a summary is larger than the number of its records. -/
theorem plain_summary {records : List (Record Float)} (small : records.length < UInt64.size) :
    Plain (fun _ => True) 1 (Summary.form.write (summarize records)) := by
  have counts := counts_summarize records
  have plain {n : Nat} (le : n ≤ records.length) : Plain (fun _ => True) 0 (.integer n) :=
    .integer (by simp) (by omega)
  rw [write_summary]
  refine .table ?_
  simp only [List.forall_mem_cons, plain_optional, true_and]
  refine ⟨plain (Nat.le.intro counts.all), plain (Nat.le.intro ((Nat.add_comm ..).trans counts.all)),
    plain (counts.calibrated.trans (Nat.le.intro counts.all)), List.forall_mem_nil _⟩

end Accuracy

namespace AccuracyReport

/-- The errors of the benchmarks, as a written report has them. -/
def toldErrors (d : Datum) : List (Option Datum) :=
  match member "benchmarks" d with
  | some (.list items) => items.map (member "error")
  | _ => []

/-- A figure of the summary of a written report. -/
def figure (name : String) (d : Datum) : Option Datum := (member "summary" d).bind (member name)

/-- A written report agrees with itself when its summary counts the errors that stand in it, the missing ones
    and the others, and has its three figures as soon as it counts an error. -/
structure SelfConsistent (d : Datum) : Prop where
  undefined : figure "undefined" d = some (.integer ((toldErrors d).countP isNull))
  count : figure "count" d = some (.integer ((toldErrors d).countP isNumber))
  figures : ∀ n, figure "count" d = some (.integer n) → 0 < n →
    ∀ name ∈ ["mean_error", "max_error", "min_error"], isNumber (figure name d)

theorem write_report (report : AccuracyReport Float) : form.write report = .table
    [("run", RunInfo.form.write report.run), ("reference_frequency_ghz", .real report.frequencyGhz),
      ("benchmarks", .list (report.benchmarks.map Accuracy.Record.form.write)),
      ("summary", Accuracy.Summary.form.write report.summary)] := rfl

open Accuracy

variable {report : AccuracyReport Float}

/-- A report with its own summary is written as a plain value. -/
theorem plain_write (own : report.summary = summarize report.benchmarks)
    (small : report.benchmarks.length < UInt64.size) : Plain (fun _ => True) 3 (form.write report) := by
  rw [write_report, own]
  refine .table ?_
  simp only [List.forall_mem_cons]
  have run : Plain (fun _ => True) 1 (RunInfo.form.write report.run) :=
    (RunInfo.durable.plain trivial).imp fun _ _ _ => trivial
  refine ⟨run.mono (by decide), .real trivial, .list ?_, (plain_summary small).mono (by decide),
    List.forall_mem_nil _⟩
  exact List.forall_mem_map.2 fun r _ => plain_record r

/-- The distance of a record is among the numbers of the report. -/
theorem mem_reals_error {r : Record Float} (there : r ∈ report.benchmarks) {x : Float} (computed : r.error = some x) :
    x ∈ (form.write report).reals := by
  have inside : x ∈ (Record.form.write r).reals := by
    rw [write_record, Datum.reals_table, computed]
    simp [Form.optional, Form.real, Datum.reals]
  have listed : x ∈ (Datum.list (report.benchmarks.map Record.form.write)).reals := by
    rw [Datum.reals_list]
    exact List.mem_flatMap_of_mem (List.mem_map_of_mem there) inside
  rw [write_report, Datum.reals_table]
  simp [listed]

/-- The figures of the summary are among the numbers of the report. -/
theorem mem_reals_figure {x : Float} (computed : report.summary.meanError = some x ∨
    report.summary.maxError = some x ∨ report.summary.minError = some x) : x ∈ (form.write report).reals := by
  have inside : x ∈ (Summary.form.write report.summary).reals := by
    rw [write_summary, Datum.reals_table]
    rcases computed with same | same | same <;> simp [same, Form.optional, Form.real, Datum.reals]
  rw [write_report, Datum.reals_table]
  simp [inside]

section

variable {parse : Parser} {write : Datum → String}

/-- What a parser finds in the text of a report. -/
def seen (parse : Parser) (write : Datum → String) (report : AccuracyReport Float) : Datum :=
  (form.write report).mapScalars (found parse write)

/-- The distances read from a report are those of its records, as they are told. -/
theorem toldErrors_seen :
    toldErrors (report.seen parse write) = report.benchmarks.map fun r => told parse write r.error := by
  have benchmarks : member "benchmarks" (report.seen parse write) =
      some ((Datum.list (report.benchmarks.map Record.form.write)).mapScalars (found parse write)) := rfl
  rw [toldErrors, benchmarks, Datum.mapScalars_list, List.map_map]
  exact List.map_map

theorem figure_seen (parse : Parser) (write : Datum → String) (report : AccuracyReport Float) :
    figure "mean_error" (report.seen parse write) = told parse write report.summary.meanError ∧
    figure "max_error" (report.seen parse write) = told parse write report.summary.maxError ∧
    figure "min_error" (report.seen parse write) = told parse write report.summary.minError := ⟨rfl, rfl, rfl⟩

/-- The errors that were computed and that no text can hold. -/
def lost (report : AccuracyReport Float) : Nat := (errors report.benchmarks).countP fun e => !e.isFinite

/-- The extreme of finite distances is finite. -/
theorem any_of_extreme {pick : Float → Float → Float} (picks : ∀ x y, pick x y = x ∨ pick x y = y)
    {es : List Float} (present : 0 < es.length) (each : ∀ e ∈ es, e.isFinite) :
    (extreme pick es).any Float.isFinite := by
  obtain ⟨x, same⟩ := Option.isSome_iff_exists.1 ((isSome_extreme_iff pick).2 present)
  rw [same]
  exact each x (mem_of_extreme picks same)

variable (faithful : Faithful parse write)
  (tells : ∀ x ∈ (form.write report).reals, x.isFinite → isNumber (parse (write (.real x))))
  (own : report.summary = summarize report.benchmarks)

include faithful tells

/-- A distance is told as a number exactly when it is computed and finite, else as null. -/
theorem isNumber_error {r : Record Float} (there : r ∈ report.benchmarks) :
    isNumber (told parse write r.error) = r.error.any Float.isFinite ∧
      isNull (told parse write r.error) = !r.error.any Float.isFinite :=
  faithful.isNumber_told fun _ computed => tells _ (mem_reals_error there computed)

include own

/-- Null stands for the errors that are undefined and for those that are lost. -/
theorem countP_isNull :
    (toldErrors (report.seen parse write)).countP isNull = report.summary.undefined + report.lost := by
  have null : ∀ r ∈ report.benchmarks, isNull (told parse write r.error) = !r.error.any Float.isFinite :=
    fun r there => (isNumber_error faithful tells there).2
  rw [toldErrors_seen, List.countP_map, own, undefined_eq_countP, lost, errors,
    List.countP_congr fun r there => by rw [Function.comp_apply, null r there]]
  induction report.benchmarks with
  | nil => rfl
  | cons r rest ih =>
    cases computed : r.error with
    | none => simp [computed, ih, Nat.add_right_comm]
    | some e => cases finite : e.isFinite <;> simp [computed, finite, ih, Nat.add_assoc]

/-- A number stands for each error that is counted and not lost. -/
theorem countP_isNumber :
    (toldErrors (report.seen parse write)).countP isNumber + report.lost = report.summary.count := by
  have number : ∀ r ∈ report.benchmarks, isNumber (told parse write r.error) = r.error.any Float.isFinite :=
    fun r there => (isNumber_error faithful tells there).1
  rw [toldErrors_seen, List.countP_map, own, count_eq_length_errors, lost, errors,
    List.countP_congr fun r there => by rw [Function.comp_apply, number r there]]
  induction report.benchmarks with
  | nil => rfl
  | cons r rest ih =>
    cases computed : r.error with
    | none => simpa [computed] using ih
    | some e =>
      cases finite : e.isFinite <;> simp [computed, finite, ← ih] <;> omega

/-- A report with the summary of its own benchmarks agrees with itself exactly when its mean is finite. -/
theorem selfConsistent_iff (small : report.benchmarks.length < UInt64.size) :
    SelfConsistent (report.seen parse write) ↔ ∀ mean, report.summary.meanError = some mean → mean.isFinite := by
  have counts := counts_summarize report.benchmarks
  rw [← own] at counts
  have whole {n : Nat} (le : n ≤ report.benchmarks.length) : found parse write (.integer n) = .integer n :=
    faithful.found_integer (le.trans_lt small)
  have count : figure "count" (report.seen parse write) = some (.integer report.summary.count) :=
    congrArg some (whole (Nat.le.intro counts.all))
  have undefined : figure "undefined" (report.seen parse write) = some (.integer report.summary.undefined) :=
    congrArg some (whole (Nat.le.intro ((Nat.add_comm ..).trans counts.all)))
  have figures : ∀ {x : Option Float}, (∀ y, x = some y → y ∈ (form.write report).reals) →
      isNumber (told parse write x) = x.any Float.isFinite := fun {x} among =>
    (faithful.isNumber_told fun y same => tells y (among y same)).1
  obtain ⟨meanSeen, largestSeen, smallestSeen⟩ := figure_seen parse write report
  constructor
  · intro consistent mean computed
    obtain ⟨counted, -⟩ := meanError_eq_some_iff.1 (own ▸ computed)
    rw [← own] at counted
    have number := consistent.figures _ count (by omega) "mean_error" (by simp)
    rwa [meanSeen, figures fun y same => mem_reals_figure (.inl same), computed] at number
  · intro finite
    have each : ∀ e ∈ errors report.benchmarks, e.isFinite := finite_of_meanError (own ▸ finite)
    have kept : report.lost = 0 := List.countP_eq_zero.2 fun e member => by simp [each e member]
    refine ⟨?undefined, ?count, ?figures⟩
    case undefined =>
      rw [undefined, countP_isNull faithful tells own, kept]
      rfl
    case count =>
      rw [count, ← countP_isNumber faithful tells own, kept]
      rfl
    case figures =>
      intro n counted positive
      rw [count] at counted
      cases counted
      have some : (summarize report.benchmarks).count ≠ 0 := by
        rw [← own]
        omega
      have present : 0 < (errors report.benchmarks).length := by
        rwa [Nat.pos_iff_ne_zero, ← count_eq_length_errors]
      have mean : report.summary.meanError.any Float.isFinite := by
        have computed := meanError_eq_some_iff.2 ⟨some, rfl⟩
        rw [← own] at computed
        rw [computed]
        exact finite _ computed
      have largest : report.summary.maxError.any Float.isFinite := by
        rw [own, summarize_eq]
        exact any_of_extreme larger_or present each
      have smallest : report.summary.minError.any Float.isFinite := by
        rw [own, summarize_eq]
        exact any_of_extreme smaller_or present each
      simp only [List.forall_mem_cons, meanSeen, largestSeen, smallestSeen]
      refine ⟨?_, ?_, ?_, List.forall_mem_nil _⟩
      · rwa [figures fun y same => mem_reals_figure (.inl same)]
      · rwa [figures fun y same => mem_reals_figure (.inr (.inl same))]
      · rwa [figures fun y same => mem_reals_figure (.inr (.inr same))]

/-- What a parser finds in a text of a report with the summary of its own benchmarks. -/
theorem exists_seen (small : report.benchmarks.length < UInt64.size) :
    ∃ d, parse (write (form.write report)) = some d ∧
      (toldErrors d).length = report.benchmarks.length ∧
      (toldErrors d).countP isNull = report.summary.undefined + report.lost ∧
      (toldErrors d).countP isNumber + report.lost = report.summary.count ∧
      (SelfConsistent d ↔ ∀ mean, report.summary.meanError = some mean → mean.isFinite) := by
  have plain : Plain (fun x => (parse (write (.real x))).isSome) 3 (form.write report) := by
    refine (plain_write own small).imp fun x there _ => ?_
    by_cases finite : x.isFinite
    · exact isSome_of_isNumber (tells x there finite)
    · rw [faithful.notFinite (Bool.eq_false_iff.2 finite), faithful.null]
      rfl
  refine ⟨report.seen parse write, faithful.parse_mapScalars plain (by decide), ?_,
    countP_isNull faithful tells own, countP_isNumber faithful tells own,
    selfConsistent_iff faithful tells own small⟩
  rw [toldErrors_seen, List.length_map]

end

end AccuracyReport

open Accuracy AccuracyReport in
/-- Null stands in both texts of an accuracy report for each undefined error and for each error that is lost,
    which is a quotient of usable latencies beyond the floats. So the report agrees with itself exactly when the
    mean of its errors is finite, if there is one. The library has to read the finite floats of the report as
    numbers, but not as the same ones. -/
theorem written_report_agrees_iff (lib : Library) (lawful : lib.Lawful) (run : RunInfo)
    (frequencyGhz defaultFrequencyGhz : Float) (real : String → Option (Metric Float))
    {predictions : List (Prediction Float)} (small : predictions.length < UInt64.size) :
    let benchmarks := evaluate real predictions defaultFrequencyGhz
    let report : AccuracyReport Float := ⟨run, frequencyGhz, benchmarks, summarize benchmarks⟩
    (∀ r ∈ benchmarks, ∀ e, r.error = some e → ∃ simulated measured,
      r.simulatedLatencyNs = some simulated ∧ r.realLatencyNs = some measured ∧
      Scalar.finitePositive simulated ∧ Scalar.finitePositive measured ∧
      Scalar.magnitude (simulated - measured) / Scalar.smaller simulated measured = e) ∧
    (lib.TellsFloats (form.write report) →
      ∀ text ∈ [lib.write form report, lib.writePretty form report], ∃ d, lib.parse text = some d ∧
        (toldErrors d).length = predictions.length ∧
        (toldErrors d).countP isNull = report.summary.undefined + report.lost ∧
        (toldErrors d).countP isNumber + report.lost = report.summary.count ∧
        (SelfConsistent d ↔ ∀ mean, report.summary.meanError = some mean → mean.isFinite)) := by
  intro benchmarks report
  refine ⟨fun r there e => exists_latencies_of_error there, fun tells => ?_⟩
  have length : benchmarks.length = predictions.length := List.length_map _
  rw [← length] at small ⊢
  have compact := exists_seen lawful.compact (fun x there finite => (tells x there finite).1) rfl small
  have pretty := exists_seen lawful.pretty (fun x there finite => (tells x there finite).2) rfl small
  exact List.forall_mem_cons.2 ⟨compact, List.forall_mem_singleton.2 pretty⟩

/-! ### A report that agrees with itself and one that does not -/

namespace AccuracyReport

/-- The costs of a run with one calibrated benchmark of the given latency. -/
def measuredGemm (latencyNs : Float) (name : String) : Option (Metric Float) :=
  if name = "gemm" then some ⟨latencyNs, latencyNs * 3.5, none, 3.5, .linearRegression⟩ else none

/-- A run to write reports for. -/
def sampleRun : RunInfo := ⟨schemaVersion, toolVersion, "quick", 42, "unix:0", none⟩

/-- The report of predictions that are held against the one benchmark. -/
def gemmReport (latencyNs : Float) (predictions : List (Accuracy.Prediction Float)) : AccuracyReport Float :=
  let benchmarks := Accuracy.evaluate (measuredGemm latencyNs) predictions 3.5
  ⟨sampleRun, 3.5, benchmarks, Accuracy.summarize benchmarks⟩

/-- The program's library tells all floats of a report, which agrees with itself: a latency twice as long as the
    measured one, and a benchmark that was not measured. -/
theorem written_report_agrees_gemm :
    let report := gemmReport 0.5 [⟨"gemm", none, some 1, none⟩, ⟨"axpy", some 2, none, none⟩]
    standard.TellsFloats (form.write report) ∧ ∃ d, standard.parse (standard.write form report) = some d ∧
      (toldErrors d).length = 2 ∧ SelfConsistent d := by
  intro report
  have numbers : ∀ x ∈ (form.write report).reals, (approximate (Decimal.written x)).isFinite := by decide +kernel
  have tells : standard.TellsFloats (form.write report) := tellsFloats_numeric fun x there _ => numbers x there
  have few : ([⟨"gemm", none, some 1, none⟩, ⟨"axpy", some 2, none, none⟩] :
      List (Accuracy.Prediction Float)).length < UInt64.size := by decide
  obtain ⟨-, told⟩ :=
    written_report_agrees_iff standard (lawful_numeric _) sampleRun 3.5 3.5 (measuredGemm 0.5) few
  obtain ⟨d, parsed, length, -, -, agrees⟩ := told tells _ List.mem_cons_self
  refine ⟨tells, d, parsed, length, agrees.2 fun mean computed => ?_⟩
  have finite : report.summary.meanError.all Float.isFinite := by decide +kernel
  have computed : report.summary.meanError = some mean := computed
  rw [computed] at finite
  exact finite

/-- The error of a prediction that is 10^600 times too long is counted and written as null. -/
theorem vast_error_is_lost : ∃ d,
    standard.parse (standard.write form (gemmReport 1e-300 [⟨"gemm", none, some 1e300, none⟩])) = some d ∧
      ¬ SelfConsistent d := by
  have numbers : ∀ x ∈ (form.write (gemmReport 1e-300 [⟨"gemm", none, some 1e300, none⟩])).reals, x.isFinite →
      (approximate (Decimal.written x)).isFinite := by decide +kernel
  have infinite : (gemmReport 1e-300 [⟨"gemm", none, some 1e300, none⟩]).summary.meanError.any
      fun mean => !mean.isFinite := by decide +kernel
  generalize vast : gemmReport 1e-300 [⟨"gemm", none, some 1e300, none⟩] = report at numbers infinite ⊢
  have own : report.summary = Accuracy.summarize report.benchmarks := by rw [← vast]; rfl
  have small : report.benchmarks.length < UInt64.size := by rw [← vast]; decide
  have tells : standard.TellsFloats (form.write report) := tellsFloats_numeric numbers
  obtain ⟨d, parsed, -, -, -, agrees⟩ :=
    exists_seen (lawful_numeric _).compact (fun x there finite => (tells x there finite).1) own small
  refine ⟨d, parsed, fun consistent => ?_⟩
  obtain ⟨mean, computed, beyond⟩ := (Option.any_eq_true ..).1 infinite
  rw [agrees.1 consistent mean computed] at beyond
  cases beyond

end AccuracyReport

end CycleCost
