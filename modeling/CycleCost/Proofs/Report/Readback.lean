/-
Module: CycleCost.Proofs.Report.Readback
Purpose: Which records can be read after they have been written. A document has no text for a float that is
  not finite, so with a library that keeps its finite floats a record comes back exactly when all of its floats
  are finite. What a cost is computed from is checked, the results are not: a product or a quotient that leaves
  the range of the floats makes a record that its own document does not give back.
Main exports: BenchmarkRecord.ReadsBack, BenchmarkRecord.readsBack_iff_finite, BenchmarkRecord.FitInRange,
  Survey.finite_record_iff, FixedWorkload.finite_estimate_iff, records_read_back
-/
import CycleCost.Proofs.Accuracy.Evaluation
import CycleCost.Proofs.Arithmetic.Float
import CycleCost.Proofs.Calibration.Estimate
import CycleCost.Proofs.Calibration.Survey
import CycleCost.Proofs.Report.Persistence

namespace CycleCost

open Document Json

namespace BenchmarkRecord

/-! ### Records and their documents -/

/-- Both texts of the record give the record again. -/
def ReadsBack (lib : Library) (r : BenchmarkRecord Float) : Prop :=
  lib.read form (lib.write form r) = some r ∧ lib.read form (lib.writePretty form r) = some r

variable {lib : Library} {r : BenchmarkRecord Float}

/-- Whatever the library does with finite floats, it gives back no others. -/
theorem finite_of_readsBack (lawful : lib.Lawful) (back : r.ReadsBack lib) : r.Finite :=
  ok_of_read durable lawful back.1

/-- A record is read back exactly when every float that it holds is finite. -/
theorem readsBack_iff_finite (lawful : lib.Lawful) (kept : lib.KeepsFloats (form.write r)) :
    r.ReadsBack lib ↔ r.Finite :=
  ⟨finite_of_readsBack lawful, fun finite => read_write durable (by decide) lawful finite kept⟩

/-- Whether the results of a fit stayed in the range of the floats. -/
structure FitInRange (r : BenchmarkRecord Float) : Prop where
  overheadMs : ∀ x, r.overheadMs = some x → x.isFinite
  cpi : r.cpi.isFinite
  ipc : ∀ x, r.ipc = some x → x.isFinite
  rSquared : r.rSquared.isFinite
  deviationMs : ∀ p ∈ r.dataPoints, p.deviationMs.isFinite

end BenchmarkRecord

/-! ### What a fit has checked -/

section

variable {α : Type}

/-- The time of a measured size is one that the fit was given. -/
theorem Survey.exists_observation {outcomes : List (Outcome α)} {p : DataPoint α}
    (measured : p ∈ (ofOutcomes outcomes).dataPoints) :
    ∃ o ∈ (ofOutcomes outcomes).series.observations, o.timeMs = p.timeMs := by
  obtain ⟨outcome, tried, reported⟩ := List.mem_filterMap.1 measured
  cases outcome with
  | skipped count reason => cases reported
  | measured count digest o =>
    cases reported
    exact ⟨o, (Series.perm_ofList _).mem_iff.2 (List.mem_filterMap.2 ⟨_, tried, rfl⟩), rfl⟩

variable [Scalar α]

/-- Values that pass the check are finite. -/
theorem Regression.finite_of_checkFinite {what : String} {values : List α}
    (checked : checkFinite what values = .ok ()) : ∀ v ∈ values, Scalar.finite v := by
  rw [checkFinite] at checked
  split at checked
  · cases checked
  next none =>
    intro v member
    simpa using List.find?_eq_none.1 none v member

/-- Points are fitted only when all ordinates are finite. -/
theorem Regression.Backend.finite_of_fit {b : Backend} {x y : List α} {line : Fit α}
    (fitted : b.fit x y = .ok line) : ∀ v ∈ y, Scalar.finite v := by
  obtain ⟨_, computed⟩ := b.fit_eq x y
  rw [computed, validate] at fitted
  by_cases paired : x.length = y.length
  · rw [if_neg (not_not_intro paired)] at fitted
    cases work : checkFinite "work units" x with
    | error reason =>
      rw [work] at fitted
      cases fitted
    | ok _ =>
      cases time : checkFinite "time" y with
      | error reason =>
        rw [work, time] at fitted
        cases fitted
      | ok _ => exact finite_of_checkFinite time
  · rw [if_pos paired] at fitted
    cases fitted

/-- The metric of a slope has the latency of the slope and the cycles of the latency. -/
theorem Metric.of_ofSlope {slope frequencyGhz : α} {unit : TimeUnit} {m : Metric α}
    (priced : ofSlope slope unit frequencyGhz = .ok m) :
    Scalar.finite frequencyGhz ∧ m.frequencyGhz = frequencyGhz ∧ m.cycles = m.latencyNs * frequencyGhz := by
  obtain ⟨clock, -, rfl⟩ := ofSlope_eq_ok_iff.1 priced
  exact ⟨(Bool.and_eq_true_iff.1 clock).1, rfl, rfl⟩

/-- A fit knows that the times were finite. -/
theorem Settings.of_fit {s : Settings α} {series : Series α} {line : Fit α} {metric : Metric α}
    (fitted : s.fit series = .ok (line, metric)) :
    (∀ o ∈ series.observations, Scalar.finite o.timeMs) ∧
      Metric.ofSlope line.slope .milliseconds s.frequencyGhz = .ok metric := by
  obtain ⟨-, found, priced⟩ := fit_eq_ok_iff.1 fitted
  refine ⟨?_, priced⟩
  intro o member
  exact Regression.Backend.finite_of_fit found _ (List.mem_map.2 ⟨o, member, rfl⟩)

end

/-! ### Measured costs -/

/-- The floats of the record of a survey are finite when the results of its fit are in range: the clock and the
    times have been checked, and a finite number of cycles has a finite latency. -/
theorem Survey.finite_record_iff {outcomes : List (Outcome Float)} {s : Settings Float} {title : Title}
    {work : UInt64} {r : BenchmarkRecord Float}
    (done : (ofOutcomes outcomes).record s title work = .ok r) : r.Finite ↔ r.FitInRange := by
  refine ⟨fun finite => ⟨finite.overheadMs, finite.cpi, finite.ipc, finite.rSquared,
    fun p measured => (finite.dataPoints p measured).2⟩, fun inRange => ?_⟩
  rw [record] at done
  cases cost : s.fit (ofOutcomes outcomes).series with
  | error fault =>
    rw [cost] at done
    cases done
  | ok found =>
    obtain ⟨line, metric⟩ := found
    obtain ⟨times, priced⟩ := Settings.of_fit cost
    obtain ⟨clock, frequency, cycles⟩ := Metric.of_ofSlope priced
    rw [cost] at done
    cases done
    have cpi : metric.cycles.isFinite := inRange.cpi
    have latency : metric.latencyNs.isFinite := (isFinite_of_mul (cycles ▸ cpi)).1
    have frequencyFinite : metric.frequencyGhz.isFinite := frequency ▸ clock
    refine ⟨latency, inRange.overheadMs, inRange.cpi, inRange.ipc, inRange.rSquared, frequencyFinite,
      by simp, fun p measured => ⟨?_, inRange.deviationMs p measured⟩⟩
    obtain ⟨o, member, same⟩ := exists_observation measured
    exact same ▸ times o member

/-! ### Supplied costs -/

namespace FixedWorkload

variable {σ : Type}

/-- The record of a usable supplied cost is there, and its floats are finite exactly when the latency, the
    throughput and the cost that the timing implies are in range. -/
theorem finite_estimate_iff (m : Machine σ) {s : Settings Float} {w : FixedWorkload Float}
    (usable : Scalar.finitePositive w.expectedCpi) (clock : Scalar.finitePositive s.frequencyGhz)
    (state : σ) :
    ∃ r, ((w.estimate m s).run state).1 = .ok r ∧ (r.Finite ↔
      (w.expectedCpi / s.frequencyGhz).isFinite ∧ (1 / w.expectedCpi).isFinite ∧
        ∀ x, r.empiricalCpi = some x → x.isFinite) := by
  obtain ⟨r, done, supplied⟩ := estimate_supplied m usable clock state
  refine ⟨r, done, ?_⟩
  obtain ⟨cpi, positive⟩ := Bool.and_eq_true_iff.1 usable
  have known : r = { w.supplied s with empiricalCpi := r.empiricalCpi } := by
    rw [← supplied]
    rfl
  have ipc : (w.supplied s).ipc = some (1 / w.expectedCpi) :=
    if_neg (Bool.eq_false_iff.1 (beq_zero_of_pos (of_decide_eq_true positive)))
  rw [known]
  constructor
  · intro finite
    exact ⟨finite.latencyNs, finite.ipc _ ipc, finite.empiricalCpi⟩
  · rintro ⟨latency, throughput, empirical⟩
    have ipcFinite : ∀ x, (w.supplied s).ipc = some x → x.isFinite := by
      rintro x same
      cases ipc.symm.trans same
      exact throughput
    have rSquared : (suppliedRSquared : Float).isFinite := by decide +kernel
    exact ⟨latency, nofun, cpi, ipcFinite, rSquared, (Bool.and_eq_true_iff.1 clock).1, empirical, nofun⟩

end FixedWorkload

/-! ### All records -/

/-- Whatever the machine does, a record of a template or of a kernel is read back exactly when the results of
    its fit are in range, and a workload of an accepted manifest has a record, which is read back exactly when
    its latency, its throughput and the cost that its timing implies are in range. This holds for every library
    that reads back what it writes and keeps the finite floats of the record. -/
theorem records_read_back {σ : Type} (toml : Parser) (lib : Library) (lawful : lib.Lawful) (m : Machine σ)
    {s : Settings Float} (clock : Scalar.finitePositive s.frequencyGhz) (state : σ) :
    (∀ (t : Template) r, ((t.calibrate m s).run state).1 = .ok r →
      lib.KeepsFloats (BenchmarkRecord.form.write r) → (r.ReadsBack lib ↔ r.FitInRange)) ∧
    (∀ (k : KernelSpec) r, ((k.calibrate m s).run state).1 = .ok r →
      lib.KeepsFloats (BenchmarkRecord.form.write r) → (r.ReadsBack lib ↔ r.FitInRange)) ∧
    ∀ text manifest, FixedManifest.ofText toml text = .ok manifest → ∀ w ∈ manifest.workloads,
      ∃ r, ((w.estimate m s).run state).1 = .ok r ∧ (lib.KeepsFloats (BenchmarkRecord.form.write r) →
        (r.ReadsBack lib ↔ (w.expectedCpi / s.frequencyGhz).isFinite ∧ (1 / w.expectedCpi).isFinite ∧
          ∀ x, r.empiricalCpi = some x → x.isFinite)) := by
  refine ⟨?template, ?kernel, ?fixed⟩
  case template =>
    intro t r done kept
    obtain ⟨outcomes, recorded⟩ := Act.exists_of_run_bind_ofResult done
    rw [BenchmarkRecord.readsBack_iff_finite lawful kept, Survey.finite_record_iff recorded]
  case kernel =>
    intro k r done kept
    obtain ⟨outcomes, recorded⟩ := Act.exists_of_run_bind_ofResult done
    rw [BenchmarkRecord.readsBack_iff_finite lawful kept, Survey.finite_record_iff recorded]
  case fixed =>
    intro text manifest accepted w member
    have usable := FixedManifest.usable_of_ofText accepted w member
    obtain ⟨r, done, finite⟩ := FixedWorkload.finite_estimate_iff m usable clock state
    exact ⟨r, done, fun kept => (BenchmarkRecord.readsBack_iff_finite lawful kept).trans finite⟩

/-! ### A cost that is kept and one that is not -/

namespace FixedManifest

/-- A text of which one workload is known to pass a test has a manifest with such a workload. -/
theorem exists_workload (toml : Parser) (text : String) (passes : FixedWorkload Float → Bool)
    (tested : (ofText toml text).toOption.any (·.workloads.any passes)) :
    ∃ manifest, ofText toml text = .ok manifest ∧ ∃ w ∈ manifest.workloads, passes w := by
  obtain ⟨manifest, accepted, some⟩ := exists_accepted tested
  exact ⟨manifest, accepted, List.any_eq_true.1 some⟩

/-- The quick profile without coarse timings. -/
def untimed : Settings Float := { Settings.ofProfile .quick with fixedRuns := 0 }

/-- A machine on which nothing goes wrong. -/
abbrev quiet : Machine Rehearsal.Stage := Rehearsal.machine ⟨[], [], [], []⟩

/-- A cost of two cycles has a record that the program's library reads back. -/
theorem records_read_back_gemm : ∃ manifest, ofText Toml.parse oneWorkload = .ok manifest ∧
    ∃ w ∈ manifest.workloads, ∃ r, ((w.estimate quiet untimed).run .start).1 = .ok r ∧
      r.ReadsBack standard := by
  obtain ⟨manifest, accepted, w, member, tested⟩ := exists_workload Toml.parse oneWorkload
    (fun w => (w.expectedCpi / untimed.frequencyGhz).isFinite && (1 / w.expectedCpi).isFinite &&
      ((w.estimate quiet untimed).run .start).1.toOption.all fun r => r.empiricalCpi.isNone &&
        (BenchmarkRecord.form.write r).reals.all fun x => approximate (Decimal.written x) = x)
    (by decide +kernel)
  obtain ⟨r, done, back⟩ := (records_read_back Toml.parse standard (lawful_numeric _) quiet (s := untimed)
    (by decide +kernel) .start).2.2 oneWorkload manifest accepted w member
  simp only [done, Except.toOption, Option.all_some, Bool.and_eq_true] at tested
  obtain ⟨⟨latency, throughput⟩, none, same⟩ := tested
  have kept : standard.KeepsFloats (BenchmarkRecord.form.write r) :=
    keepsFloats_numeric fun x there _ => of_decide_eq_true (List.all_eq_true.1 same x there)
  refine ⟨manifest, accepted, w, member, r, done, (back kept).2 ⟨latency, throughput, fun x found => ?_⟩⟩
  rw [found] at none
  cases none

/-- A manifest with a cost whose reciprocal is beyond all floats. -/
def tinyCost : String :=
  "[[workload]]\nname = \"gemm\"\ninstructions_per_iteration = 340\n" ++
    "executable = \"/fake/gemm\"\nexpected_cpi = 1e-310\n"

/-- The manifest of the tiny cost is accepted, and no library reads back the record of its workload. -/
theorem tiny_cost_is_lost : ∃ manifest, ofText Toml.parse tinyCost = .ok manifest ∧
    Scalar.finitePositive untimed.frequencyGhz ∧ ∃ w ∈ manifest.workloads, ∃ r,
      ((w.estimate quiet untimed).run .start).1 = .ok r ∧
      ∀ lib : Library, lib.Lawful → ¬ r.ReadsBack lib := by
  have clock : Scalar.finitePositive untimed.frequencyGhz := by decide +kernel
  obtain ⟨manifest, accepted, w, member, infinite⟩ := exists_workload Toml.parse tinyCost
    (fun w => !(1 / w.expectedCpi).isFinite) (by decide +kernel)
  obtain ⟨r, done, finite⟩ := FixedWorkload.finite_estimate_iff quiet
    (usable_of_ofText accepted w member) clock .start
  refine ⟨manifest, accepted, clock, w, member, r, done, fun lib lawful back => ?_⟩
  rw [(finite.1 (BenchmarkRecord.finite_of_readsBack lawful back)).2.1] at infinite
  cases infinite

end FixedManifest

end CycleCost
