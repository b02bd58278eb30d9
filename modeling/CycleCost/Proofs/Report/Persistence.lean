/-
Module: CycleCost.Proofs.Report.Persistence
Purpose: Records survive being written and read again. What is read in a form from any text is read back from
  both texts that are written for it, and still when members that stand at their default are taken out of the
  text. It takes a library that reads back what it writes, unless it is nested too deep, and the floats that the
  record holds.
Main exports: defaultMember, Durable, Persists, BenchmarkRecord.durable, CalibrationReport.durable,
  AccuracyReport.durable, documents_persist
-/
import CycleCost.Proofs.Document.Numeric
import CycleCost.Proofs.Document.Schema
import CycleCost.Report.Forms

namespace CycleCost

open Document Json

/-- The members that a reader fills in when they are missing, with what it fills in. A name is enough to know
    them by: the one name that also stands for a required member, `cpi`, never holds null there. -/
def defaultMember : String → Option Datum
  | "source_sha256" | "empirical_cpi" | "note" | "cpi" | "latency_ns" | "frequency_ghz" => some .null
  | "data_points" | "skipped_points" | "failures" => some (.list [])
  | _ => none

/-- Values of a form that satisfy `ok` survive in documents of this height, and documents have no others. -/
abbrev Durable {β : Type} (form : Form β) (height : Nat) (ok : β → Prop) : Prop :=
  form.Governed defaultMember dialect height ok

/-- Whatever is read from a text is read back from its own texts, with or without default members, by a library
    that keeps its floats. -/
def Persists {β : Type} (lib : Library) (form : Form β) : Prop :=
  ∀ text v, lib.read form text = some v → lib.KeepsFloats (form.write v) →
    lib.read form (lib.write form v) = some v ∧
    lib.read form (lib.writePretty form v) = some v ∧
    ∀ d, Thinned defaultMember (form.write v) d →
      lib.read form (lib.compact d) = some v ∧ lib.read form (lib.pretty d) = some v

section

variable {β : Type} {form : Form β} {height : Nat} {ok : β → Prop} {lib : Library}

/-- Whatever a lawful library reads in a form is in its range. -/
theorem ok_of_read (durable : Durable form height ok) (lawful : lib.Lawful) {text : String} {v : β}
    (read : lib.read form text = some v) : ok v := by
  obtain ⟨d, parsed, found⟩ := Option.bind_eq_some_iff.1 read
  exact durable.sound (lawful.bounded parsed) found

/-- A value whose floats are kept is read back from either layout, also without its default members. -/
theorem read_thinned (durable : Durable form height ok) (within : height ≤ nestingLimit) (lawful : lib.Lawful)
    {v : β} (good : ok v) (kept : lib.KeepsFloats (form.write v)) {d : Datum}
    (thinned : Thinned defaultMember (form.write v) d) :
    lib.read form (lib.compact d) = some v ∧ lib.read form (lib.pretty d) = some v := by
  have plain : Plain lib.Keeps height d := ((durable.plain good).imp kept).thinned thinned
  have compact := lawful.compact.parse_plain (plain.imp fun _ _ keeps => keeps.1) within
  have pretty := lawful.pretty.parse_plain (plain.imp fun _ _ keeps => keeps.2) within
  have read := durable.reads good thinned
  rw [Library.read, Library.read, compact, pretty]
  exact ⟨read, read⟩

/-- A value whose floats are kept is read back from either layout. -/
theorem read_write (durable : Durable form height ok) (within : height ≤ nestingLimit) (lawful : lib.Lawful)
    {v : β} (good : ok v) (kept : lib.KeepsFloats (form.write v)) :
    lib.read form (lib.write form v) = some v ∧ lib.read form (lib.writePretty form v) = some v :=
  read_thinned durable within lawful good kept (.same _)

/-- A durable form persists in every lawful library. -/
theorem Durable.persists (durable : Durable form height ok) (within : height ≤ nestingLimit)
    (lawful : lib.Lawful) : Persists lib form := by
  intro text v read kept
  have good := ok_of_read durable lawful read
  have written := read_write durable within lawful good kept
  exact ⟨written.1, written.2, fun d thinned => read_thinned durable within lawful good kept thinned⟩

end

/-! ### Every kind of record -/

/-- Whether every float of a measured size is finite. -/
def DataPoint.Finite (p : DataPoint Float) : Prop := p.timeMs.isFinite ∧ p.deviationMs.isFinite

/-- Whether every float of a record is finite. -/
structure BenchmarkRecord.Finite (r : BenchmarkRecord Float) : Prop where
  latencyNs : r.latencyNs.isFinite
  overheadMs : ∀ x, r.overheadMs = some x → x.isFinite
  cpi : r.cpi.isFinite
  ipc : ∀ x, r.ipc = some x → x.isFinite
  rSquared : r.rSquared.isFinite
  frequencyGhz : r.frequencyGhz.isFinite
  empiricalCpi : ∀ x, r.empiricalCpi = some x → x.isFinite
  dataPoints : ∀ p ∈ r.dataPoints, p.Finite

/-- Whether every count of a tally is one that a document can hold. -/
def Tally.InRange (t : Tally) : Prop :=
  t.calibrated < UInt64.size ∧ t.analytical < UInt64.size ∧ t.failed < UInt64.size

namespace Accuracy

/-- Whether every float of a comparison is finite. -/
structure Record.Finite (r : Record Float) : Prop where
  simulatedCpi : ∀ x, r.simulatedCpi = some x → x.isFinite
  realCpi : ∀ x, r.realCpi = some x → x.isFinite
  simulatedLatencyNs : ∀ x, r.simulatedLatencyNs = some x → x.isFinite
  realLatencyNs : ∀ x, r.realLatencyNs = some x → x.isFinite
  error : ∀ x, r.error = some x → x.isFinite

/-- Whether every count is one that a document can hold and every float is finite. -/
structure Summary.InRange (s : Summary Float) : Prop where
  count : s.count < UInt64.size
  undefined : s.undefined < UInt64.size
  calibratedCount : s.calibratedCount < UInt64.size
  meanError : ∀ x, s.meanError = some x → x.isFinite
  maxError : ∀ x, s.maxError = some x → x.isFinite
  minError : ∀ x, s.minError = some x → x.isFinite

/-- Whether every float of a prediction is finite. -/
structure Prediction.Finite (p : Prediction Float) : Prop where
  cpi : ∀ x, p.cpi = some x → x.isFinite
  latencyNs : ∀ x, p.latencyNs = some x → x.isFinite
  frequencyGhz : ∀ x, p.frequencyGhz = some x → x.isFinite

end Accuracy

section

open Form Field Fields

theorem SkippedPoint.durable : Durable SkippedPoint.form 1 fun _ => True :=
  ((described_of SkippedPoint.mk)
    |>.add (governed_required governed_word64 rfl) (by decide)
    |>.add (governed_required governed_text rfl) (by decide)).governed
    (fun _ => rfl) (by simp +contextual) (by simp +contextual)

theorem DataPoint.durable : Durable DataPoint.form 1 DataPoint.Finite :=
  ((described_of DataPoint.mk)
    |>.add (governed_required governed_word64 rfl) (by decide)
    |>.add (governed_required governed_word64 rfl) (by decide)
    |>.add (governed_required governed_real rfl) (by decide)
    |>.add (governed_required governed_real rfl) (by decide)
    |>.add (governed_whenPresent governed_text neverNull_text rfl) (by decide)).governed
    (fun _ => rfl) (by simp +contextual [DataPoint.Finite, required]) (by simp +contextual [DataPoint.Finite])

theorem Method.durable : Durable Method.form 0 fun _ => True :=
  governed_named fun v => by cases v <;> rfl

theorem BenchmarkRecord.durable : Durable BenchmarkRecord.form 3 BenchmarkRecord.Finite :=
  ((described_of BenchmarkRecord.mk)
    |>.add (governed_required governed_text rfl) (by decide)
    |>.add (governed_required governed_text rfl) (by decide)
    |>.add (governed_required governed_word64 rfl) (by decide)
    |>.add (governed_required governed_real rfl) (by decide)
    |>.add (governed_optional governed_real neverNull_real rfl) (by decide)
    |>.add (governed_required_present governed_real neverNull_real rfl) (by decide)
    |>.add (governed_optional governed_real neverNull_real rfl) (by decide)
    |>.add (governed_required governed_real rfl) (by decide)
    |>.add (governed_required governed_real rfl) (by decide)
    |>.add (governed_required Method.durable rfl) (by decide)
    |>.add (governed_required governed_bool rfl) (by decide)
    |>.add (governed_whenPresent governed_real neverNull_real rfl) (by decide)
    |>.add (governed_defaulted_nil DataPoint.durable rfl) (by decide)
    |>.add (governed_defaulted_nil SkippedPoint.durable rfl) (by decide)).governed
    (fun _ => rfl) (by rintro r ⟨⟩; and_intros <;> first | assumption | (intros; trivial))
    (by dsimp only; intros; constructor <;> assumption)

theorem BenchmarkFailure.durable : Durable BenchmarkFailure.form 1 fun _ => True :=
  ((described_of BenchmarkFailure.mk)
    |>.add (governed_required governed_text rfl) (by decide)
    |>.add (governed_required governed_text rfl) (by decide)).governed
    (fun _ => rfl) (by simp +contextual) (by simp +contextual)

theorem Tally.durable : Durable Tally.form 1 Tally.InRange :=
  ((described_of Tally.mk)
    |>.add (governed_required governed_size rfl) (by decide)
    |>.add (governed_required governed_size rfl) (by decide)
    |>.add (governed_required governed_size rfl) (by decide)).governed
    (fun _ => rfl) (by simp +contextual [Tally.InRange, required]) (by simp +contextual [Tally.InRange])

theorem RunInfo.durable : Durable RunInfo.form 1 fun _ => True :=
  ((described_of RunInfo.mk)
    |>.add (governed_required governed_word32 rfl) (by decide)
    |>.add (governed_required governed_text rfl) (by decide)
    |>.add (governed_required governed_text rfl) (by decide)
    |>.add (governed_required governed_word64 rfl) (by decide)
    |>.add (governed_required governed_text rfl) (by decide)
    |>.add (governed_optional governed_text neverNull_text rfl) (by decide)).governed
    (fun _ => rfl) (by simp +contextual) (by simp +contextual)

theorem CalibrationReport.durable : Durable CalibrationReport.form 5 fun report =>
    report.frequencyGhz.isFinite ∧ (∀ r ∈ report.results, r.Finite) ∧ report.summary.InRange :=
  ((described_of CalibrationReport.mk)
    |>.add (governed_required RunInfo.durable rfl) (by decide)
    |>.add (governed_required governed_text rfl) (by decide)
    |>.add (governed_required governed_text rfl) (by decide)
    |>.add (governed_required governed_real rfl) (by decide)
    |>.add (governed_required BenchmarkRecord.durable.list rfl) (by decide)
    |>.add (governed_required Tally.durable rfl) (by decide)
    |>.add (governed_defaulted_nil BenchmarkFailure.durable rfl) (by decide)).governed
    (fun _ => rfl) (by simp +contextual [required]) (by simp +contextual)

theorem Accuracy.Record.durable : Durable Accuracy.Record.form 1 Accuracy.Record.Finite :=
  ((described_of Accuracy.Record.mk)
    |>.add (governed_required governed_text rfl) (by decide)
    |>.add (governed_optional governed_real neverNull_real rfl) (by decide)
    |>.add (governed_optional governed_real neverNull_real rfl) (by decide)
    |>.add (governed_optional governed_real neverNull_real rfl) (by decide)
    |>.add (governed_optional governed_real neverNull_real rfl) (by decide)
    |>.add (governed_optional governed_real neverNull_real rfl) (by decide)
    |>.add (governed_required governed_bool rfl) (by decide)
    |>.add (governed_whenPresent governed_text neverNull_text rfl) (by decide)).governed
    (fun _ => rfl) (by rintro r ⟨⟩; and_intros <;> first | assumption | (intros; trivial))
    (by dsimp only; intros; constructor <;> assumption)

theorem Accuracy.Summary.durable : Durable Accuracy.Summary.form 1 Accuracy.Summary.InRange :=
  ((described_of Accuracy.Summary.mk)
    |>.add (governed_required governed_size rfl) (by decide)
    |>.add (governed_required governed_size rfl) (by decide)
    |>.add (governed_required governed_size rfl) (by decide)
    |>.add (governed_optional governed_real neverNull_real rfl) (by decide)
    |>.add (governed_optional governed_real neverNull_real rfl) (by decide)
    |>.add (governed_optional governed_real neverNull_real rfl) (by decide)).governed
    (fun _ => rfl) (by rintro r ⟨⟩; and_intros <;> first | assumption | trivial)
    (by dsimp only; intros; constructor <;> assumption)

theorem Accuracy.Prediction.durable : Durable Accuracy.Prediction.form 1 Accuracy.Prediction.Finite :=
  ((described_of Accuracy.Prediction.mk)
    |>.add (governed_required governed_text rfl) (by decide)
    |>.add (governed_defaulted_none governed_real neverNull_real rfl) (by decide)
    |>.add (governed_defaulted_none governed_real neverNull_real rfl) (by decide)
    |>.add (governed_defaulted_none governed_real neverNull_real rfl) (by decide)).governed
    (fun _ => rfl) (by rintro r ⟨⟩; and_intros <;> first | assumption | trivial)
    (by dsimp only; intros; constructor <;> assumption)

theorem Predictions.durable : Durable Predictions.form 3 fun predictions =>
    ∀ p ∈ predictions.benchmarks, p.Finite :=
  ((described_of Predictions.mk)
    |>.add (governed_required Accuracy.Prediction.durable.list rfl) (by decide)).governed
    (fun _ => rfl) (by simp +contextual [required]) (by simp +contextual)

theorem AccuracyReport.durable : Durable AccuracyReport.form 3 fun report =>
    report.frequencyGhz.isFinite ∧ (∀ r ∈ report.benchmarks, r.Finite) ∧ report.summary.InRange :=
  ((described_of AccuracyReport.mk)
    |>.add (governed_required RunInfo.durable rfl) (by decide)
    |>.add (governed_required governed_real rfl) (by decide)
    |>.add (governed_required Accuracy.Record.durable.list rfl) (by decide)
    |>.add (governed_required Accuracy.Summary.durable rfl) (by decide)).governed
    (fun _ => rfl) (by simp +contextual [required]) (by simp +contextual)

end

/-- Every kind of record and report survives in its documents. -/
theorem documents_persist (lib : Library) (lawful : lib.Lawful) :
    Persists lib RunInfo.form ∧ Persists lib DataPoint.form ∧ Persists lib SkippedPoint.form ∧
    Persists lib BenchmarkRecord.form ∧ Persists lib BenchmarkFailure.form ∧ Persists lib Tally.form ∧
    Persists lib CalibrationReport.form ∧
    Persists lib Accuracy.Record.form ∧ Persists lib Accuracy.Summary.form ∧
    Persists lib AccuracyReport.form ∧
    Persists lib Accuracy.Prediction.form ∧ Persists lib Predictions.form :=
  ⟨RunInfo.durable.persists (by decide) lawful, DataPoint.durable.persists (by decide) lawful,
    SkippedPoint.durable.persists (by decide) lawful, BenchmarkRecord.durable.persists (by decide) lawful,
    BenchmarkFailure.durable.persists (by decide) lawful, Tally.durable.persists (by decide) lawful,
    CalibrationReport.durable.persists (by decide) lawful, Accuracy.Record.durable.persists (by decide) lawful,
    Accuracy.Summary.durable.persists (by decide) lawful, AccuracyReport.durable.persists (by decide) lawful,
    Accuracy.Prediction.durable.persists (by decide) lawful, Predictions.durable.persists (by decide) lawful⟩

/-- A measured size with a count that no float holds, an unknown member and no digest. -/
def dataPointText (timeMs : String) : String :=
  "\x7b\"instructions\": 18446744073709551615, \"std_ms\": 0, \"extra\": [1], \"repetitions\": 10,
    \"time_ms\": " ++ timeMs ++ "\x7d"

/-- The program's library keeps the first time. It loses the second one, which is kept where every numeral is read
    as the nearest float. -/
theorem documents_persist_dataPoint :
    (∃ v, standard.read DataPoint.form (dataPointText "1.5e-7") = some v ∧
      standard.KeepsFloats (DataPoint.form.write v) ∧
      standard.read DataPoint.form (standard.writePretty DataPoint.form v) = some v) ∧
    let nearest := numeric Decimal.Numeral.toFloat
    ∃ v, nearest.read DataPoint.form (dataPointText "3.5e-300") = some v ∧
      nearest.read DataPoint.form (nearest.writePretty DataPoint.form v) = some v := by
  constructor
  · have tested : (standard.read DataPoint.form (dataPointText "1.5e-7")).any fun v =>
        (DataPoint.form.write v).reals.all fun x => approximate (Decimal.written x) = x := by decide +kernel
    obtain ⟨v, read, same⟩ := (Option.any_eq_true ..).1 tested
    have kept : standard.KeepsFloats (DataPoint.form.write v) :=
      keepsFloats_numeric fun x there _ => of_decide_eq_true (List.all_eq_true.1 same x there)
    exact ⟨v, read, kept, ((documents_persist standard (lawful_numeric _)).2.1 _ v read kept).2.1⟩
  · intro nearest
    have there : (nearest.read DataPoint.form (dataPointText "3.5e-300")).isSome := by decide +kernel
    obtain ⟨v, read⟩ := Option.isSome_iff_exists.1 there
    exact ⟨v, read, ((documents_persist nearest (lawful_numeric _)).2.1 _ v read keepsFloats_nearest).2.1⟩

end CycleCost
