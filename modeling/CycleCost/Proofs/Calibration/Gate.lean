/-
Module: CycleCost.Proofs.Calibration.Gate
Purpose: Different sizes are counted twice: the gate before a fit counts different numbers of instructions, and the
  fit counts the different floats that they are read as. Reading rounds above 53 bits, so the two counts agree on
  short numbers only. What passes the gate is refused by the fit exactly when every count is read as the same
  float, which takes counts that are all within 2048 of each other.
Main exports: Settings.fit_eq_tooFewPoints_iff, KernelSpec.fit_surveyed_eq_tooFewPoints_iff,
  KernelSpec.too_few_points_iff, KernelSpec.creeping_sizes_are_one
-/
import CycleCost.Proofs.Calibration.Kernel
import CycleCost.Proofs.Measurement.Equal
import CycleCost.Proofs.Regression.Abscissas

namespace CycleCost

open Binary64 Regression

variable {σ α : Type} [Scalar α] [Binary64 α]

/-! ### Both counts -/

omit [Binary64 α] in
/-- The conversion of a slope never reports too few points. -/
theorem Metric.ofSlope_ne_tooFewPoints (slope frequencyGhz : α) (unit : TimeUnit) (distinct required : Nat) :
    Metric.ofSlope slope unit frequencyGhz ≠ .error (.tooFewPoints distinct required) := by
  rw [ofSlope, checkFrequency]
  intro failed
  split at failed
  · change (if Scalar.finite slope then _ else _) = _ at failed
    split at failed <;> cases failed
  · cases failed

/-- There are too few points for the gate, or for the fit behind it. -/
theorem Settings.fit_eq_tooFewPoints_iff {s : Settings α} {series : Series α} {distinct required : Nat} :
    s.fit series = .error (.tooFewPoints distinct required) ↔
      (series.distinctWork < s.requiredPoints ∧ distinct = series.distinctWork ∧ required = s.requiredPoints) ∨
        (s.requiredPoints ≤ series.distinctWork ∧
          Refused series.abscissas series.ordinates (.tooFewPoints distinct required)) := by
  by_cases few : series.distinctWork < s.requiredPoints
  · rw [fit_of_few few, Except.error.injEq, Fault.tooFewPoints.injEq]
    simp [few, few.not_ge, eq_comm]
  · have enough := Nat.le_of_not_lt few
    obtain ⟨line, computed⟩ := s.backend.fit_eq series.abscissas series.ordinates
    rw [← validate_eq_error_iff_refused, fit_eq, if_neg few]
    simp only [few, enough, false_and, true_and, false_or]
    change (s.backend.fit series.abscissas series.ordinates >>= _) = _ ↔ _
    rw [computed]
    cases verdict : validate series.abscissas series.ordinates with
    | error fault =>
      change Except.error fault = _ ↔ _
      simp only [Except.error.injEq]
    | ok checked =>
      refine iff_of_false ?_ nofun
      change (Metric.ofSlope line.slope .milliseconds s.frequencyGhz >>= _) ≠ _
      cases priced : Metric.ofSlope line.slope .milliseconds s.frequencyGhz with
      | ok metric => nofun
      | error fault =>
        intro failed
        cases failed
        exact Metric.ofSlope_ne_tooFewPoints _ _ _ _ _ priced

omit [Binary64 α] in
/-- A survey without a record has the fault of its fit. -/
theorem Survey.record_eq_error_iff {survey : Survey α} {s : Settings α} {title : Title} {work : UInt64}
    {fault : Fault} : survey.record s title work = .error fault ↔ s.fit survey.series = .error fault := by
  rw [record]
  cases s.fit survey.series with
  | error reason =>
    change Except.error reason = _ ↔ _
    simp only [Except.error.injEq]
  | ok cost =>
    constructor
    · intro failed
      cases failed
    · intro failed
      cases failed

namespace KernelSpec

variable {s : Settings α} {k : KernelSpec} {visits : List KernelVisit}

omit [Binary64 α] in
/-- The series of a calibration holds the counts of the measured sizes. -/
theorem toFinset_work_surveyed (s : Settings α) (k : KernelSpec) (visits : List KernelVisit) :
    ((k.surveyed s visits).series.observations.map (·.workUnits)).toFinset =
      (k.measuredWork s visits).toFinset := by
  rw [measuredWork, ← observations_surveyed]
  exact List.toFinset_eq_of_perm _ _ ((Series.perm_ofList _).map _)

/-- A fit of the measured sizes finds them too few for the gate, or one float for all of them. -/
theorem fit_surveyed_eq_tooFewPoints_iff {distinct required : Nat} :
    s.fit (k.surveyed s visits).series = .error (.tooFewPoints distinct required) ↔
      ((k.measuredWork s visits).toFinset.card < s.requiredPoints ∧
        distinct = (k.measuredWork s visits).toFinset.card ∧ required = s.requiredPoints) ∨
      (s.requiredPoints ≤ (k.measuredWork s visits).toFinset.card ∧
        ((k.measuredWork s visits).toFinset.image readAs).card = 1 ∧
        (∀ v ∈ (k.surveyed s visits).series.ordinates, Scalar.finite v = true) ∧ distinct = 1 ∧ required = 2) := by
  rw [Settings.fit_eq_tooFewPoints_iff, distinctWork_surveyed]
  apply or_congr_right
  apply and_congr_right
  intro enough
  have present : (k.surveyed s visits).series.observations ≠ [] := by
    intro none
    have some := (Nat.le_max_right s.minPoints minimumDistinct).trans enough
    rw [← toFinset_work_surveyed, none] at some
    cases some
  rw [Series.refused_tooFewPoints_iff present, toFinset_work_surveyed]

/-- The gate counts the different instruction counts of the measured sizes, the fit the floats that these counts are
    read as. A calibration has too few points when the gate says so, and besides when the gate lets pass counts
    that are all read as one float; the fault then tells of one size where there were several. This does not
    happen among counts of up to 53 bits, which the two count alike, and not when two counts are more than 2048
    apart. -/
theorem too_few_points_iff (m : Machine σ) (s : Settings α) (k : KernelSpec) (state : σ) :
    ∃ visits, k.Tour m s state visits ∧
      let work := (k.measuredWork s visits).toFinset
      let fitted := (k.surveyed s visits).series
      let result := ((k.calibrate m s).run state).1
      (fitted.abscissas.map value).toFinset = work.image readAs ∧
      distinctCount fitted.abscissas = (work.image readAs).card ∧
      (∀ distinct required, result = .error (.tooFewPoints distinct required) ↔
        (work.card < max s.minPoints 2 ∧ distinct = work.card ∧ required = max s.minPoints 2) ∨
        (max s.minPoints 2 ≤ work.card ∧ (work.image readAs).card = 1 ∧
          (∀ v ∈ fitted.ordinates, Scalar.finite v = true) ∧ distinct = 1 ∧ required = 2)) ∧
      ((∀ w ∈ work, w.toNat ≤ 2 ^ 53) → (work.image readAs).card = work.card) ∧
      (max s.minPoints 2 ≤ work.card →
        (∀ w ∈ work, w.toNat ≤ 2 ^ 53) ∨ (∃ u ∈ work, ∃ v ∈ work, u.toNat + 2048 < v.toNat) →
        ∀ distinct required, result ≠ .error (.tooFewPoints distinct required)) := by
  obtain ⟨visits, tour, ended⟩ := k.exists_tour m s state
  have failed_iff (fault : Fault) :
      ((k.calibrate m s).run state).1 = .error fault ↔ s.fit (k.surveyed s visits).series = .error fault := by
    rw [ended]
    exact Survey.record_eq_error_iff
  have reasons (distinct required : Nat) :=
    (failed_iff (.tooFewPoints distinct required)).trans fit_surveyed_eq_tooFewPoints_iff
  refine ⟨visits, tour, ?values, ?count, reasons, card_image_readAs, ?agree⟩
  case values => rw [Series.map_value_abscissas, toFinset_map_readAs, toFinset_work_surveyed]
  case count => rw [Series.distinctCount_abscissas, toFinset_work_surveyed]
  case agree =>
    intro enough apart distinct required failed
    rcases (reasons distinct required).1 failed with ⟨few, -⟩ | ⟨-, one, -⟩
    · exact absurd enough few.not_ge
    rcases apart with short | ⟨u, first, v, second, far⟩
    · rw [card_image_readAs short] at one
      exact absurd ((le_max_right _ _).trans enough) (by rw [one]; decide)
    · have same := Finset.card_le_one.1 one.le _ (Finset.mem_image_of_mem readAs first) _
        (Finset.mem_image_of_mem readAs second)
      exact readAs_ne_of_far far same

/-! ### Large sizes close to each other -/

/-- A kernel of three sizes. -/
def gemm : KernelSpec := ⟨"gemm", "", .cubic, some [1, 2, 3], 0⟩

/-- A machine that remembers the size it built last. One more size is one more instruction and one more second, and
    the smallest of them has 2^54 instructions. -/
def creeping : Machine UInt64 where
  build _ := throw .noSamples
  buildKernel name count := ExceptT.mk fun _ => (.ok name, count)
  count _ := ExceptT.mk fun last => (.ok (18014398509481983 + last), last)
  run _ _ := ExceptT.mk fun last => (.ok ⟨some 0, ⟨1000000000 * last.toNat⟩⟩, last)
  release _ := pure ()

/-- One run for each size, and else what is usual. -/
def singleRuns : Settings Float :=
  { Settings.ofProfile .quick with harness := ⟨1, 0, Settings.defaultTrimFraction, .ofSeconds 30⟩ }

theorem counts_gemm : gemm.counts = [1, 2, 3] := ascendingCounts_eq (by decide) fun _ => Iff.rfl

/-- The instruction counts of the three sizes: 2^54 and the next two. -/
def creepingWork : List UInt64 := [18014398509481984, 18014398509481985, 18014398509481986]

theorem finite_mean_single : ∀ seconds ∈ [1, 2, 3], Scalar.finite (Scalar.mean (Sample.kept
    [(⟨1000000000 * seconds⟩ : Duration).milliseconds] (Settings.defaultTrimFraction : Float))) = true := by
  intro seconds member
  have single (time : Float) : Sample.kept [time] Settings.defaultTrimFraction = [time] := by
    have same := Sample.kept_replicate 1 time Settings.defaultTrimFraction
    rwa [if_neg (by rw [Sample.minimumKept]; omega)] at same
  rw [single]
  fin_cases member <;> decide +kernel

/-- Three sizes of different instruction counts are enough for the gate, and are one size for the fit. -/
theorem creeping_sizes_are_one :
    ∃ p q r : Observation Float,
      (([1, 2, 3].mapM (gemm.trySize creeping singleRuns)).run 0).1 =
        .ok [.measured 1 none p, .measured 2 none q, .measured 3 none r] ∧
      [p, q, r].map (·.workUnits) = creepingWork ∧
      max singleRuns.minPoints 2 ≤ creepingWork.toFinset.card ∧
      ((gemm.calibrate creeping singleRuns).run 0).1 = .error (.tooFewPoints 1 2) := by
  obtain ⟨p, q, r, tried, work, times⟩ : ∃ p q r : Observation Float,
      (([1, 2, 3].mapM (gemm.trySize creeping singleRuns)).run 0).1 =
        .ok [.measured 1 none p, .measured 2 none q, .measured 3 none r] ∧
      [p, q, r].map (·.workUnits) = creepingWork ∧
      [p, q, r].map (·.timeMs) = [1, 2, 3].map fun seconds => Scalar.mean
        (Sample.kept [(⟨1000000000 * seconds⟩ : Duration).milliseconds] Settings.defaultTrimFraction) :=
    ⟨_, _, _, rfl, rfl, rfl⟩
  have enough : singleRuns.requiredPoints = creepingWork.toFinset.card := by decide
  have perm := Series.perm_ofList [p, q, r]
  have counts : ((Series.ofList [p, q, r]).observations.map (·.workUnits)).toFinset = creepingWork.toFinset := by
    rw [List.toFinset_eq_of_perm _ _ (perm.map _), work]
  have present : (Series.ofList [p, q, r]).observations ≠ [] := by
    rw [← List.length_pos_iff, perm.length_eq]
    exact Nat.succ_pos 2
  have finite : ∀ v ∈ (Series.ofList [p, q, r]).ordinates, Scalar.finite v = true := by
    intro v member
    have found := (perm.map (·.timeMs)).mem_iff.1 member
    rw [times] at found
    obtain ⟨seconds, one, rfl⟩ := List.mem_map.1 found
    exact finite_mean_single seconds one
  have refused : singleRuns.fit (Series.ofList [p, q, r]) = .error (.tooFewPoints 1 2) := by
    rw [Settings.fit_eq_tooFewPoints_iff, Series.distinctWork_eq_card, counts,
      Series.refused_tooFewPoints_iff present, counts]
    exact .inr ⟨enough.le, by decide +kernel, finite, rfl, rfl⟩
  refine ⟨p, q, r, tried, work, enough.le, ?_⟩
  rw [calibrate, Act.outcome_bind, counts_gemm, tried]
  exact Survey.record_eq_error_iff.2 refused

end KernelSpec

end CycleCost
