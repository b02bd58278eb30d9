/-
Module: CycleCost.Proofs.Accuracy.Evaluation
Purpose: What becomes of a prediction. Every prediction has its own record, which has an error exactly when
  the prediction gives a latency, the benchmark has a measured one and both are usable; every other record
  is kept with a note. Whether the measured cost was calibrated shows in each of them.
Main exports: relativeError_eq_ok_iff, Accuracy.Prediction.Gives, Accuracy.Comparable, Accuracy.Accounts,
  Accuracy.map_error_compare, Accuracy.error_score, Accuracy.accounts_score, Accuracy.count_add_undefined,
  Accuracy.evaluate_accounts
-/
import CycleCost.Accuracy

namespace CycleCost

variable {α : Type} [Scalar α]

/-! ### When two costs can be compared -/

theorem checkComparable_of_usable {what : String} {v : α} (usable : Scalar.finitePositive v) :
    checkComparable what v = .ok () :=
  if_pos usable

theorem checkComparable_of_unusable {what : String} {v : α} (unusable : ¬ Scalar.finitePositive v) :
    checkComparable what v = .error (.badMetric what (Scalar.shown v)) :=
  if_neg unusable

theorem exists_relativeError_iff {simulated real : α} :
    (∃ e, relativeError simulated real = .ok e) ↔
      Scalar.finitePositive simulated ∧ Scalar.finitePositive real := by
  rw [relativeError]
  by_cases first : Scalar.finitePositive simulated
  · by_cases second : Scalar.finitePositive real
    · rw [checkComparable_of_usable first, checkComparable_of_usable second]
      exact ⟨fun _ => ⟨first, second⟩, fun _ => ⟨_, rfl⟩⟩
    · rw [checkComparable_of_usable first, checkComparable_of_unusable second]
      exact ⟨nofun, fun both => absurd both.2 second⟩
  · rw [checkComparable_of_unusable first]
    exact ⟨nofun, fun both => absurd both.1 first⟩

/-- What the distance is, and when there is one, in one equivalence. -/
theorem relativeError_eq_ok_iff {simulated real e : α} :
    relativeError simulated real = .ok e ↔ Scalar.finitePositive simulated ∧ Scalar.finitePositive real ∧
      Scalar.magnitude (simulated - real) / Scalar.smaller simulated real = e := by
  constructor
  · intro done
    obtain ⟨first, second⟩ := exists_relativeError_iff.1 ⟨e, done⟩
    rw [relativeError, checkComparable_of_usable first, checkComparable_of_usable second] at done
    exact ⟨first, second, Except.ok.inj done⟩
  · rintro ⟨first, second, rfl⟩
    rw [relativeError, checkComparable_of_usable first, checkComparable_of_usable second]
    rfl

theorem checkFrequency_eq_ok_iff {frequencyGhz : α} :
    checkFrequency frequencyGhz = .ok () ↔ Scalar.finitePositive frequencyGhz := by
  rw [checkFrequency]
  by_cases running : Scalar.finitePositive frequencyGhz
  · simp [running]
  · simp [running]

namespace Metric

variable {frequencyGhz : α} {method : Method} {m : Metric α}

/-- A metric is made from a finite number at a clock that runs, and refused otherwise. -/
theorem checked_eq_ok_iff {value : α} {made : Metric α} {fault : Fault} :
    (do checkFrequency frequencyGhz
        if Scalar.finite value then return made else throw fault : Result (Metric α)) = .ok m ↔
      Scalar.finitePositive frequencyGhz ∧ Scalar.finite value ∧ made = m := by
  by_cases running : Scalar.finitePositive frequencyGhz
  · rw [checkFrequency_eq_ok_iff.2 running]
    by_cases finite : Scalar.finite value
    · rw [if_pos finite]
      exact ⟨fun done => ⟨running, finite, Except.ok.inj done⟩, fun known => congrArg _ known.2.2⟩
    · rw [if_neg finite]
      exact ⟨nofun, fun known => absurd known.2.1 finite⟩
  · rw [checkFrequency, if_neg running]
    exact ⟨nofun, fun known => absurd known.1 running⟩

/-- A metric made from cycles needs a usable clock and a finite number of cycles, and nothing else. -/
theorem ofCpi_eq_ok_iff {cpi : α} :
    ofCpi cpi frequencyGhz method = .ok m ↔
      Scalar.finitePositive frequencyGhz ∧ Scalar.finite cpi ∧
        ofParts (cpi / frequencyGhz) cpi frequencyGhz method = m :=
  checked_eq_ok_iff

theorem ofLatency_eq_ok_iff {latencyNs : α} :
    ofLatency latencyNs frequencyGhz method = .ok m ↔
      Scalar.finitePositive frequencyGhz ∧ Scalar.finite latencyNs ∧
        ofParts latencyNs (latencyNs * frequencyGhz) frequencyGhz method = m :=
  checked_eq_ok_iff

/-- A metric made from a slope is the one of the slope in nanoseconds, marked as a regression. -/
theorem ofSlope_eq_ok_iff {slope : α} {unit : TimeUnit} :
    ofSlope slope unit frequencyGhz = .ok m ↔
      Scalar.finitePositive frequencyGhz ∧ Scalar.finite slope ∧
        ofParts (slope * unit.nanos) (slope * unit.nanos * frequencyGhz) frequencyGhz
          .linearRegression = m :=
  checked_eq_ok_iff

end Metric

namespace Accuracy

/-! ### The latency that a prediction gives -/

/-- The clock of a prediction: its own, or else that of the comparison. -/
def Prediction.clock (p : Prediction α) (defaultFrequencyGhz : α) : α :=
  p.frequencyGhz.getD defaultFrequencyGhz

/-- The latency that a prediction gives: that of its cycles when it has any, and otherwise its own. Neither is
    given at a clock that does not run, nor by a number that is not finite. -/
inductive Prediction.Gives (p : Prediction α) (defaultFrequencyGhz : α) : α → Prop where
  | cycles {cpi : α} : p.cpi = some cpi → Scalar.finite cpi →
      Scalar.finitePositive (p.clock defaultFrequencyGhz) →
      Gives p defaultFrequencyGhz (cpi / p.clock defaultFrequencyGhz)
  | latency {latencyNs : α} : p.cpi = none → p.latencyNs = some latencyNs → Scalar.finite latencyNs →
      Scalar.finitePositive (p.clock defaultFrequencyGhz) →
      Gives p defaultFrequencyGhz latencyNs

/-- The latency of a priced prediction is one that the prediction gives. -/
theorem Prediction.gives_of_metric {p : Prediction α} {defaultFrequencyGhz : α} {m : Metric α}
    (priced : p.metric defaultFrequencyGhz = .ok m) : p.Gives defaultFrequencyGhz m.latencyNs := by
  rw [Prediction.metric] at priced
  split at priced
  case h_1 cpi cycles =>
    obtain ⟨running, finite, rfl⟩ := Metric.ofCpi_eq_ok_iff.1 priced
    exact .cycles cycles finite running
  case h_2 latencyNs none latency =>
    obtain ⟨running, finite, rfl⟩ := Metric.ofLatency_eq_ok_iff.1 priced
    exact .latency none latency finite running
  case h_3 => cases priced

/-- A prediction that gives a latency is priced with that latency. -/
theorem Prediction.exists_metric_of_gives {p : Prediction α} {defaultFrequencyGhz latencyNs : α}
    (gives : p.Gives defaultFrequencyGhz latencyNs) :
    ∃ m, p.metric defaultFrequencyGhz = .ok m ∧ m.latencyNs = latencyNs := by
  cases gives with
  | @cycles cpi cycles finite running =>
    refine ⟨.ofParts (cpi / p.clock defaultFrequencyGhz) cpi (p.clock defaultFrequencyGhz) .simulated, ?_,
      rfl⟩
    rw [Prediction.metric, cycles]
    exact Metric.ofCpi_eq_ok_iff.2 ⟨running, finite, rfl⟩
  | latency none latency finite running =>
    refine ⟨.ofParts latencyNs (latencyNs * p.clock defaultFrequencyGhz) (p.clock defaultFrequencyGhz)
      .simulated, ?_, rfl⟩
    rw [Prediction.metric, none, latency]
    exact Metric.ofLatency_eq_ok_iff.2 ⟨running, finite, rfl⟩

/-- A prediction can be compared when it gives a usable latency for a benchmark whose measured latency is
    usable as well. -/
def Comparable (real : String → Option (Metric α)) (defaultFrequencyGhz : α) (p : Prediction α) : Prop :=
  ∃ latencyNs measured, p.Gives defaultFrequencyGhz latencyNs ∧ real p.name = some measured ∧
    Scalar.finitePositive latencyNs ∧ Scalar.finitePositive measured.latencyNs

/-! ### The record of a prediction -/

/-- What the record of a prediction has to show. -/
structure Accounts (real : String → Option (Metric α)) (defaultFrequencyGhz : α) (p : Prediction α)
    (r : Record α) : Prop where
  name : r.name = p.name
  error : r.error.isSome ↔ Comparable real defaultFrequencyGhz p
  note : r.note.isSome ↔ ¬ Comparable real defaultFrequencyGhz p
  calibrated : r.calibrated ↔
    ∃ measured, real p.name = some measured ∧ measured.method = .linearRegression

/-- Only the regression counts as calibrated. -/
theorem isCalibrated_iff {method : Method} : method.isCalibrated ↔ method = .linearRegression := by
  cases method <;> decide

theorem accounts_undefined {real : String → Option (Metric α)} {defaultFrequencyGhz : α}
    {p : Prediction α} (apart : ¬ Comparable real defaultFrequencyGhz p) (simulated : Option (Metric α))
    (note : String) :
    Accounts real defaultFrequencyGhz p (.undefined p.name simulated (real p.name) note) where
  name := rfl
  error := ⟨nofun, fun comparable => absurd comparable apart⟩
  note := ⟨fun _ => apart, fun _ => rfl⟩
  calibrated := by
    rw [Record.undefined, Option.any_eq_true]
    simp only [isCalibrated_iff]

theorem compare_eq_ok {name : String} {simulated measured : Metric α} {e : α}
    (distance : relativeError simulated.latencyNs measured.latencyNs = .ok e) :
    compare name simulated measured = .ok ⟨name, some simulated.cycles, some measured.cycles,
      some simulated.latencyNs, some measured.latencyNs, some e, measured.method.isCalibrated, none⟩ := by
  rw [compare, distance]
  rfl

theorem compare_eq_error {name : String} {simulated measured : Metric α} {fault : Fault}
    (refused : relativeError simulated.latencyNs measured.latencyNs = .error fault) :
    compare name simulated measured = .error fault := by
  rw [compare, refused]
  rfl

/-- A comparison only looks at the two latencies. -/
theorem map_error_compare (name : String) (simulated measured : Metric α) :
    (compare name simulated measured).map (·.error) =
      (relativeError simulated.latencyNs measured.latencyNs).map some := by
  cases distance : relativeError simulated.latencyNs measured.latencyNs with
  | error fault =>
    rw [compare_eq_error distance]
    rfl
  | ok e =>
    rw [compare_eq_ok distance]
    rfl

/-- The error of a prediction is that of its latency, where the benchmark has a cost. -/
theorem error_score (real : String → Option (Metric α)) (defaultFrequencyGhz : α) (p : Prediction α) :
    (score real defaultFrequencyGhz p).error =
      (p.metric defaultFrequencyGhz).toOption.bind fun simulated => (real p.name).bind fun measured =>
        (relativeError simulated.latencyNs measured.latencyNs).toOption := by
  rw [score]
  cases p.metric defaultFrequencyGhz with
  | error fault => rfl
  | ok simulated =>
    cases known : real p.name with
    | none => rfl
    | some measured =>
      cases distance : relativeError simulated.latencyNs measured.latencyNs with
      | error fault =>
        simp only [compare_eq_error distance, Except.toOption, Option.bind_some, distance]
        rfl
      | ok e => simp only [compare_eq_ok distance, Except.toOption, Option.bind_some, distance]

/-- The record of a prediction accounts for it, whichever of its three obstacles it meets. -/
theorem accounts_score (real : String → Option (Metric α)) (defaultFrequencyGhz : α) (p : Prediction α) :
    Accounts real defaultFrequencyGhz p (score real defaultFrequencyGhz p) := by
  rw [score]
  cases priced : p.metric defaultFrequencyGhz with
  | error fault =>
    apply accounts_undefined
    rintro ⟨latencyNs, measured, gives, -⟩
    obtain ⟨m, given, -⟩ := Prediction.exists_metric_of_gives gives
    rw [given] at priced
    cases priced
  | ok simulated =>
    -- A prediction gives one latency at most, so the one of its metric decides.
    have only {latencyNs : α} (gives : p.Gives defaultFrequencyGhz latencyNs) :
        simulated.latencyNs = latencyNs := by
      obtain ⟨m, given, same⟩ := Prediction.exists_metric_of_gives gives
      rw [given] at priced
      cases priced
      exact same
    cases known : real p.name with
    | none =>
      have apart : ¬ Comparable real defaultFrequencyGhz p := by
        rintro ⟨latencyNs, measured, -, found, -⟩
        rw [known] at found
        cases found
      have accounts := accounts_undefined apart (some simulated) "no calibration record"
      rwa [known] at accounts
    | some measured =>
      cases distance : relativeError simulated.latencyNs measured.latencyNs with
      | error fault =>
        have apart : ¬ Comparable real defaultFrequencyGhz p := by
          rintro ⟨latencyNs, other, gives, found, usable⟩
          rw [known] at found
          cases found
          rw [← only gives] at usable
          obtain ⟨e, done⟩ := exists_relativeError_iff.2 usable
          rw [done] at distance
          cases distance
        have accounts := accounts_undefined apart (some simulated) fault.message
        rw [known] at accounts
        simpa only [compare_eq_error distance] using accounts
      | ok e =>
        have comparable : Comparable real defaultFrequencyGhz p :=
          ⟨_, measured, Prediction.gives_of_metric priced, known,
            exists_relativeError_iff.1 ⟨e, distance⟩⟩
        simp only [compare_eq_ok distance]
        exact {
          name := rfl
          error := ⟨fun _ => comparable, fun _ => rfl⟩
          note := ⟨nofun, fun apart => absurd comparable apart⟩
          calibrated := by simp [known, isCalibrated_iff] }

/-! ### All predictions -/

/-- Each record read raises one of the two counts by one. -/
theorem count_add_undefined_foldl (t : Totals α) (records : List (Record α)) :
    (records.foldl Totals.add t).count + (records.foldl Totals.add t).undefined =
      t.count + t.undefined + records.length := by
  induction records generalizing t with
  | nil => rfl
  | cons r rest ih =>
    have one : (t.add r).count + (t.add r).undefined = t.count + t.undefined + 1 := by
      rw [Totals.add]
      split
      · exact (Nat.add_assoc ..).symm
      · exact Nat.add_right_comm ..
    rw [List.foldl_cons, ih, one, List.length_cons, Nat.add_assoc, Nat.add_comm 1]

/-- A summary counts every record once, with an error or without. -/
theorem count_add_undefined (records : List (Record α)) :
    (summarize records).count + (summarize records).undefined = records.length := by
  have all := count_add_undefined_foldl Totals.empty records
  rwa [Totals.empty, Nat.zero_add, Nat.zero_add] at all

/-- The record at a place is the score of the prediction at that place. -/
theorem getElem?_evaluate (real : String → Option (Metric α)) (predictions : List (Prediction α))
    (defaultFrequencyGhz : α) (i : Nat) :
    (evaluate real predictions defaultFrequencyGhz)[i]? =
      predictions[i]?.map (score real defaultFrequencyGhz) :=
  List.getElem?_map

/-- A prediction may be replaced by one with the same error. -/
theorem map_error_evaluate_congr {real : String → Option (Metric α)} {defaultFrequencyGhz : α}
    {p q : Prediction α}
    (same : (score real defaultFrequencyGhz q).error = (score real defaultFrequencyGhz p).error)
    (front back : List (Prediction α)) :
    (evaluate real (front ++ q :: back) defaultFrequencyGhz).map (·.error) =
      (evaluate real (front ++ p :: back) defaultFrequencyGhz).map (·.error) := by
  simp [evaluate, same]

/-- The score of a prediction reads the measured metrics at its own name only. -/
theorem score_congr {real other : String → Option (Metric α)} {p : Prediction α}
    (same : real p.name = other p.name) (defaultFrequencyGhz : α) :
    score real defaultFrequencyGhz p = score other defaultFrequencyGhz p := by
  rw [score, score, same]

/-- Each prediction has the record that accounts for it, in order and under its name. A record depends on its
    own prediction, the clock and the measured cost of its name; a measured cost that is not a positive number
    never has an error; and the summary counts every prediction. -/
theorem evaluate_accounts (real : String → Option (Metric α)) (predictions : List (Prediction α))
    (defaultFrequencyGhz : α) :
    (evaluate real predictions defaultFrequencyGhz).map (·.name) = predictions.map (·.name) ∧
    (∀ (i : Nat) (p : Prediction α), predictions[i]? = some p →
      ∃ r, (evaluate real predictions defaultFrequencyGhz)[i]? = some r ∧
      Accounts real defaultFrequencyGhz p r ∧
      (∀ measured, real p.name = some measured → ¬ Scalar.finitePositive measured.latencyNs →
        r.error = none ∧ r.note.isSome) ∧
      ∀ (other : String → Option (Metric α)) (others : List (Prediction α)) (j : Nat),
        others[j]? = some p → other p.name = real p.name →
        (evaluate other others defaultFrequencyGhz)[j]? = some r) ∧
    (summarize (evaluate real predictions defaultFrequencyGhz)).count +
      (summarize (evaluate real predictions defaultFrequencyGhz)).undefined = predictions.length := by
  refine ⟨?names, ?records, ?counts⟩
  case names =>
    rw [evaluate, List.map_map]
    apply List.map_congr_left
    intro p _
    exact (accounts_score real defaultFrequencyGhz p).name
  case records =>
    intro i p found
    have accounts := accounts_score real defaultFrequencyGhz p
    refine ⟨score real defaultFrequencyGhz p, ?_, accounts, ?_, ?_⟩
    · rw [getElem?_evaluate, found, Option.map_some]
    · intro measured known unusable
      have apart : ¬ Comparable real defaultFrequencyGhz p := by
        rintro ⟨latencyNs, other, -, same, -, usable⟩
        rw [known] at same
        cases same
        exact unusable usable
      have silent := mt accounts.error.1 apart
      exact ⟨Option.not_isSome_iff_eq_none.1 silent, accounts.note.2 apart⟩
    · intro other others j elsewhere same
      rw [getElem?_evaluate, elsewhere, Option.map_some, score_congr same]
  case counts => rw [count_add_undefined, evaluate, List.length_map]

/-- A measured latency of zero: the prediction for it is kept with a note and stays marked as calibrated. -/
theorem evaluate_accounts_idle :
    let idle : Metric Float := ⟨0, 0, none, 3.5, .linearRegression⟩
    let real (name : String) : Option (Metric Float) := if name = "idle" then some idle else none
    let predictions : List (Prediction Float) :=
      [⟨"gemm", some 0.9, none, none⟩, ⟨"idle", none, some 0.5, none⟩]
    ∃ r, (evaluate real predictions 3.5)[1]? = some r ∧ r.error = none ∧ r.note.isSome ∧
      r.calibrated := by
  intro idle real predictions
  obtain ⟨-, records, -⟩ := evaluate_accounts real predictions 3.5
  obtain ⟨r, found, accounts, unusable, -⟩ := records 1 ⟨"idle", none, some 0.5, none⟩ rfl
  obtain ⟨error, note⟩ := unusable idle rfl (by decide)
  exact ⟨r, found, error, note, accounts.calibrated.2 ⟨idle, rfl, rfl⟩⟩

end Accuracy

end CycleCost
