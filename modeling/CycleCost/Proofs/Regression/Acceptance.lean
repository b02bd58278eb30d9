/-
Module: CycleCost.Proofs.Regression.Acceptance
Purpose: Which points a line is fitted to, and why others are refused. The values are sorted by the total order and
  compared by numeric equality. On numbers of finite size the two go together: equal values stand side by side,
  the two zeros among them, so passing over repeats counts the different numbers. The values have been found
  finite before they are counted.
Main exports: Regression.distinctCount_eq_card_key, Regression.distinctCount_eq_card, Regression.Accepted,
  Regression.Refused, Regression.accepted_or_refused, Regression.validation_is_exact
-/
import CycleCost.Proofs.Arithmetic.Rank
import CycleCost.Proofs.Measurement.Ranking
import CycleCost.Proofs.Regression.Line
import CycleCost.Proofs.Regression.Series

namespace CycleCost.Regression

open Binary64

variable {α : Type} [Scalar α]

/-! ### The scan for values that are not finite -/

/-- The first of the values that is not finite. -/
def FirstUnusable (v : α) (values : List α) : Prop :=
  Scalar.finite v = false ∧
    ∃ before after, values = before ++ v :: after ∧ ∀ u ∈ before, Scalar.finite u = true

/-- A search for an unusable value finds the first one. -/
theorem find_unusable_eq_some_iff {v : α} {values : List α} :
    values.find? (fun v => !Scalar.finite v) = some v ↔ FirstUnusable v values := by
  rw [List.find?_eq_some_iff_append, FirstUnusable]
  simp

/-- The fault shows the first unusable value. -/
theorem checkFinite_of_firstUnusable {v : α} {values : List α} (first : FirstUnusable v values)
    (what : String) : checkFinite what values = .error (.badMetric what (Scalar.shown v)) := by
  rw [checkFinite, find_unusable_eq_some_iff.2 first]

/-- Either all values are finite or one is the first that is not. -/
theorem finite_or_firstUnusable (values : List α) :
    (∀ v ∈ values, Scalar.finite v = true) ∨ ∃ v, FirstUnusable v values := by
  cases found : values.find? (fun v => !Scalar.finite v) with
  | none => exact .inl (by simpa using found)
  | some v => exact .inr ⟨v, find_unusable_eq_some_iff.1 found⟩

/-! ### The count of different values -/

section

variable {κ : Type} [LinearOrder κ] {key : α → κ} {x : List α}

/-- Values are counted by any key that ascends with the total order and that numeric equality compares. -/
theorem distinctCount_eq_card_key [Ranked α] (apart : TellsApart Scalar.eq key x)
    (order : ∀ u ∈ x, ∀ v ∈ x, Scalar.totalLe u v = true → key u ≤ key v) :
    distinctCount x = (x.map key).toFinset.card := by
  have inside : ∀ u ∈ x.mergeSort Scalar.totalLe, u ∈ x := fun _ => List.mem_mergeSort.1
  have apart' : TellsApart Scalar.eq key (x.mergeSort Scalar.totalLe) :=
    fun u first v second => apart u (inside u first) v (inside v second)
  have ascending : (x.mergeSort Scalar.totalLe).Pairwise (key · ≤ key ·) :=
    (Sample.pairwise_sorted x).imp_of_mem fun first second => order _ (inside _ first) _ (inside _ second)
  have same : ((x.mergeSort Scalar.totalLe).map key).toFinset = (x.map key).toFinset :=
    List.toFinset_eq_of_perm _ _ ((List.mergeSort_perm x _).map key)
  rw [distinctCount, length_dropRepeats apart' ascending, same]

omit [Scalar α] in
/-- Fewer than two different keys is all the same key. -/
theorem card_key_lt_two_iff : (x.map key).toFinset.card < 2 ↔ ∀ u ∈ x, ∀ v ∈ x, key u = key v := by
  rw [Nat.lt_succ_iff, Finset.card_le_one]
  simp

/-- Finite values are counted as the numbers they are. -/
theorem distinctCount_eq_card [Binary64 α] (finite : ∀ u ∈ x, Scalar.finite u = true) :
    distinctCount x = (x.map value).toFinset.card := by
  apply distinctCount_eq_card_key
  · intro u first v second
    exact eq_iff_value_eq (finite u first) (finite v second)
  · intro u first v second
    exact value_le_of_totalLe (finite u first) (finite v second)

end

/-! ### Acceptance and refusal -/

/-- Points that determine a line. -/
structure Accepted [Binary64 α] (x y : List α) : Prop where
  paired : x.length = y.length
  work : ∀ u ∈ x, Scalar.finite u = true
  time : ∀ v ∈ y, Scalar.finite v = true
  differ : ∃ u ∈ x, ∃ v ∈ x, value u ≠ value v

/-- Why points are refused. A later reason counts only where no earlier one does. -/
inductive Refused [Binary64 α] (x y : List α) : Fault → Prop where
  | unpaired (differ : x.length ≠ y.length) :
      Refused x y (.unsolvable s!"length mismatch: {x.length} x vs {y.length} y")
  | work (paired : x.length = y.length) {u : α} (first : FirstUnusable u x) :
      Refused x y (.badMetric "work units" (Scalar.shown u))
  | time (paired : x.length = y.length) (work : ∀ u ∈ x, Scalar.finite u = true) {v : α}
      (first : FirstUnusable v y) : Refused x y (.badMetric "time" (Scalar.shown v))
  | level (paired : x.length = y.length) (work : ∀ u ∈ x, Scalar.finite u = true)
      (time : ∀ v ∈ y, Scalar.finite v = true) (same : ∀ u ∈ x, ∀ v ∈ x, value u = value v) :
      Refused x y (.tooFewPoints (x.map value).toFinset.card minimumDistinct)

variable {x y : List α}

theorem validate_of_paired (paired : x.length = y.length) : validate x y = (do
    checkFinite "work units" x
    checkFinite "time" y
    let distinct := distinctCount x
    if distinct < minimumDistinct then throw (.tooFewPoints distinct minimumDistinct)) := by
  rw [validate, if_neg (not_not_intro paired)]

variable [Binary64 α]

theorem Accepted.validate_eq (accepted : Accepted x y) : validate x y = .ok () := by
  obtain ⟨u, first, v, second, differ⟩ := accepted.differ
  have enough : ¬ distinctCount x < minimumDistinct := by
    rw [distinctCount_eq_card accepted.work]
    exact fun few => differ (card_key_lt_two_iff.1 few u first v second)
  rw [validate_of_paired accepted.paired, checkFinite_of_finite accepted.work, checkFinite_of_finite accepted.time]
  exact if_neg enough

theorem Refused.validate_eq {fault : Fault} (refused : Refused x y fault) : validate x y = .error fault := by
  cases refused with
  | unpaired differ => rw [validate, if_pos differ]; rfl
  | work paired first =>
    rw [validate_of_paired paired, checkFinite_of_firstUnusable first]
    rfl
  | time paired work first =>
    rw [validate_of_paired paired, checkFinite_of_finite work, checkFinite_of_firstUnusable first]
    rfl
  | level paired work time same =>
    have few : distinctCount x < minimumDistinct := by
      rw [distinctCount_eq_card work]
      exact card_key_lt_two_iff.2 same
    rw [validate_of_paired paired, checkFinite_of_finite work, checkFinite_of_finite time,
      ← distinctCount_eq_card work]
    exact if_pos few

/-- There is always a reason to accept or to refuse. -/
theorem accepted_or_refused (x y : List α) : Accepted x y ∨ ∃ fault, Refused x y fault := by
  by_cases paired : x.length = y.length
  case neg => exact .inr ⟨_, .unpaired paired⟩
  rcases finite_or_firstUnusable x with work | ⟨u, first⟩
  case inr => exact .inr ⟨_, .work paired first⟩
  rcases finite_or_firstUnusable y with time | ⟨v, first⟩
  case inr => exact .inr ⟨_, .time paired work first⟩
  by_cases same : ∀ u ∈ x, ∀ v ∈ x, value u = value v
  · exact .inr ⟨_, .level paired work time same⟩
  · push Not at same
    exact .inl ⟨paired, work, time, same⟩

/-- The lists that pass are the accepted ones. -/
theorem validate_eq_ok_iff_accepted : validate x y = .ok () ↔ Accepted x y := by
  refine ⟨fun accepted => ?_, Accepted.validate_eq⟩
  rcases accepted_or_refused x y with determined | ⟨fault, refused⟩
  · exact determined
  · rw [refused.validate_eq] at accepted
    cases accepted

/-- The faults of the check are those of the refused lists. -/
theorem validate_eq_error_iff_refused {fault : Fault} : validate x y = .error fault ↔ Refused x y fault := by
  refine ⟨fun failed => ?_, Refused.validate_eq⟩
  rcases accepted_or_refused x y with determined | ⟨reason, refused⟩
  · rw [determined.validate_eq] at failed
    cases failed
  · rw [refused.validate_eq] at failed
    cases failed
    exact refused

/-- Accepted points are not none. -/
theorem Accepted.ne_nil (accepted : Accepted x y) : y ≠ [] := by
  rintro rfl
  obtain ⟨u, member, -⟩ := accepted.differ
  rw [List.length_eq_zero_iff.1 accepted.paired] at member
  exact List.not_mem_nil member

/-- Points are accepted exactly when they come in pairs, all numbers are finite and two abscissas differ as numbers.
    Otherwise the fault is that of the first of these that fails: the two lengths, the first value that is not
    finite among all abscissas and then among all ordinates, or the exact count of the different abscissas, for
    which the two zeros are one. Either backend fits the accepted points and fails for the others with the same
    fault, and the ordinates it goes on with have a first one. -/
theorem validation_is_exact (x y : List α) :
    (validate x y = .ok () ↔ Accepted x y) ∧ (∀ fault, validate x y = .error fault ↔ Refused x y fault) ∧
    (∀ b : Backend, ((∃ line, b.fit x y = .ok line) ↔ Accepted x y) ∧
      ∀ fault, b.fit x y = .error fault ↔ Refused x y fault) ∧
    (validate x y = .ok () → ∃ first rest, y = first :: rest) := by
  refine ⟨validate_eq_ok_iff_accepted, fun _ => validate_eq_error_iff_refused, fun b => ?fits, fun accepted => ?first⟩
  case fits =>
    obtain ⟨line, computed⟩ := b.fit_eq x y
    rw [← validate_eq_ok_iff_accepted, computed]
    cases verdict : validate x y with
    | ok checked =>
      have fault (reason : Fault) : ¬ Refused x y reason := by
        rw [← validate_eq_error_iff_refused, verdict]
        nofun
      exact ⟨iff_of_true ⟨line, rfl⟩ rfl, fun reason => iff_of_false nofun (fault reason)⟩
    | error reason =>
      refine ⟨iff_of_false nofun nofun, fun fault => ?_⟩
      rw [← validate_eq_error_iff_refused, verdict, Except.map]
      simp only [Except.error.injEq]
  case first => exact List.exists_cons_of_ne_nil (validate_eq_ok_iff_accepted.1 accepted).ne_nil

end CycleCost.Regression
