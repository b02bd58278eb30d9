/-
Module: CycleCost.Proofs.Accuracy.Summary
Purpose: What a summary of errors adds up. Its figures are those of the errors alone, apart from the number of
  records without one, and each of them can be put together from the figures of parts. When nothing is rounded,
  the extremes are errors between which all errors lie, and the order of the records does not matter.
Main exports: Accuracy.errors, Accuracy.extreme, Accuracy.Totals.Of, Accuracy.summarize_eq,
  Accuracy.Summary.Counts, Accuracy.Summary.Spans, Accuracy.summaries_add_up
-/
import CycleCost.Proofs.Arithmetic.Exact
import CycleCost.Proofs.Accuracy.Evaluation

namespace CycleCost.Accuracy

/-! ### The extreme of some errors -/

section

variable {α : Type} (pick : α → α → α)

/-- The extreme of the errors so far, with one more of them. -/
def grow (found : Option α) (e : α) : Option α := some (found.elim e (pick · e))

/-- The extreme of errors that are looked at one after another, where `pick` says which of two goes further. -/
def extreme (errors : List α) : Option α := errors.foldl (grow pick) none

/-- A further distance is compared with the extreme of those before it. -/
theorem extreme_concat (errors : List α) (e : α) :
    extreme pick (errors ++ [e]) = grow pick (extreme pick errors) e :=
  List.foldl_concat ..

theorem foldl_grow_some (a : α) (errors : List α) :
    errors.foldl (grow pick) (some a) = some (errors.foldl pick a) := by
  induction errors generalizing a with
  | nil => rfl
  | cons e rest ih => exact ih _

theorem extreme_cons (e : α) (rest : List α) : extreme pick (e :: rest) = some (rest.foldl pick e) :=
  foldl_grow_some pick e rest

/-- There is an extreme exactly when there is a distance. -/
theorem isSome_extreme_iff {errors : List α} : (extreme pick errors).isSome ↔ 0 < errors.length := by
  cases errors with
  | nil => simp [extreme]
  | cons e rest => simp [extreme_cons]

variable {pick}

/-- An extreme of errors is one of them. -/
theorem mem_of_extreme (picks : ∀ x y, pick x y = x ∨ pick x y = y) {errors : List α} {x : α}
    (found : extreme pick errors = some x) : x ∈ errors := by
  have chosen (rest : List α) (a : α) : rest.foldl pick a ∈ a :: rest := by
    induction rest generalizing a with
    | nil => exact List.mem_singleton_self a
    | cons e rest ih =>
      rcases List.mem_cons.1 (ih (pick a e)) with last | later
      · rw [List.foldl_cons, last]
        rcases picks a e with old | new
        · simp [old]
        · simp [new]
      · exact List.mem_cons_of_mem _ (List.mem_cons_of_mem _ later)
  cases errors with
  | nil => cases found
  | cons e rest =>
    rw [extreme_cons] at found
    cases found
    exact chosen rest e

/-- The extreme of two lists goes further than both of theirs; one that is absent does not count. -/
theorem extreme_append [Std.Associative pick] (errors others : List α) :
    extreme pick (errors ++ others) = Option.merge pick (extreme pick errors) (extreme pick others) := by
  cases errors with
  | nil => simp [extreme]
  | cons a errors =>
    cases others with
    | nil => simp [extreme]
    | cons b others =>
      rw [List.cons_append, extreme_cons, extreme_cons, extreme_cons, List.foldl_append, List.foldl_cons,
        List.foldl_assoc]
      rfl

/-- The extreme does not depend on the order of the errors. -/
theorem extreme_perm [Std.Commutative pick] [Std.Associative pick] {errors others : List α}
    (same : errors.Perm others) : extreme pick errors = extreme pick others := by
  have exchange (found : Option α) (e f : α) :
      grow pick (grow pick found e) f = grow pick (grow pick found f) e := by
    cases found with
    | none => exact congrArg some (Std.Commutative.comm e f)
    | some a => exact congrArg some (RightCommutative.right_comm a e f)
  exact same.foldl_eq' (fun e _ f _ found => exchange found e f) none

end

/-! ### The figures of a summary -/

section

variable {α : Type} [Scalar α]

/-- The larger of two values is one of them, also where they cannot be compared. -/
theorem larger_or (x y : α) : Scalar.larger x y = x ∨ Scalar.larger x y = y := by
  rw [Scalar.larger]
  split
  · exact .inr rfl
  · split
    · exact .inr rfl
    · exact .inl rfl

theorem smaller_or (x y : α) : Scalar.smaller x y = x ∨ Scalar.smaller x y = y := by
  rw [Scalar.smaller]
  split
  · exact .inr rfl
  · split
    · exact .inr rfl
    · exact .inl rfl

/-- The errors of those records that have one. -/
def errors (records : List (Record α)) : List α := records.filterMap (·.error)

/-- The figures of a summary over the records that have been seen. -/
structure Totals.Of (t : Totals α) (records : List (Record α)) : Prop where
  count : t.count = (errors records).length
  undefined : t.undefined = records.countP (·.error.isNone)
  calibratedCount : t.calibratedCount = records.countP fun r => r.error.isSome && r.calibrated
  sum : t.sum = (errors records).foldl (· + ·) Scalar.zero
  largest : t.largest = extreme Scalar.larger (errors records)
  smallest : t.smallest = extreme Scalar.smaller (errors records)

/-- One more record keeps the figures those of the records seen. -/
theorem Totals.Of.add {t : Totals α} {records : List (Record α)} (known : t.Of records) (r : Record α) :
    (t.add r).Of (records ++ [r]) := by
  cases computed : r.error with
  | none =>
    have same : errors (records ++ [r]) = errors records := by
      simp [errors, computed]
    rw [Totals.add, computed]
    exact {
      count := same ▸ known.count
      undefined := by simp [known.undefined, computed]
      calibratedCount := by simp [known.calibratedCount, computed]
      sum := same ▸ known.sum
      largest := same ▸ known.largest
      smallest := same ▸ known.smallest }
  | some e =>
    have more : errors (records ++ [r]) = errors records ++ [e] := by
      simp [errors, computed]
    rw [Totals.add, computed]
    exact {
      count := by simp [more, known.count]
      undefined := by simp [known.undefined, computed]
      calibratedCount := by cases measured : r.calibrated <;> simp [known.calibratedCount, computed, measured]
      sum := by simp [more, known.sum]
      largest := by rw [more, extreme_concat, known.largest]; rfl
      smallest := by rw [more, extreme_concat, known.smallest]; rfl }

/-- The running totals describe every record read so far. -/
theorem Totals.Of.foldl {t : Totals α} {done : List (Record α)} (known : t.Of done)
    (rest : List (Record α)) : (rest.foldl Totals.add t).Of (done ++ rest) := by
  induction rest generalizing t done with
  | nil => rwa [List.append_nil]
  | cons r rest ih =>
    rw [List.append_cons]
    exact ih (known.add r)

theorem Totals.of_empty : (Totals.empty : Totals α).Of [] := ⟨rfl, rfl, rfl, rfl, rfl, rfl⟩

/-- The figures behind a summary. -/
theorem Totals.of_records (records : List (Record α)) : (records.foldl Totals.add Totals.empty).Of records :=
  Totals.of_empty.foldl records

/-- A summary from the errors alone, apart from the two counts that look at whole records. -/
theorem summarize_eq (records : List (Record α)) : summarize records = {
    count := (errors records).length
    undefined := records.countP (·.error.isNone)
    calibratedCount := records.countP fun r => r.error.isSome && r.calibrated
    meanError := if (errors records).length = 0 then none
      else some ((errors records).foldl (· + ·) Scalar.zero / Scalar.ofNat (errors records).length)
    maxError := extreme Scalar.larger (errors records)
    minError := extreme Scalar.smaller (errors records) } := by
  have known := Totals.of_records records
  rw [summarize, known.count, known.undefined, known.calibratedCount, known.sum, known.largest, known.smallest]

variable {records others : List (Record α)}

/-- The count is the number of records with a distance. -/
theorem count_eq_length_errors : (summarize records).count = (errors records).length := by
  rw [summarize_eq]

/-- The undefined ones are the records without a distance. -/
theorem undefined_eq_countP : (summarize records).undefined = records.countP (·.error.isNone) := by
  rw [summarize_eq]

/-- The mean is the sum of the distances over their number, present when that number is not zero. -/
theorem meanError_eq_some_iff {mean : α} : (summarize records).meanError = some mean ↔
    (summarize records).count ≠ 0 ∧
      (errors records).foldl (· + ·) Scalar.zero / Scalar.ofNat (summarize records).count = mean := by
  rw [summarize_eq]
  by_cases none : (errors records).length = 0 <;> simp [none]

/-- Only the records with an error show in a summary, apart from the number of the others. -/
theorem summarize_congr (same : others.filter (·.error.isSome) = records.filter (·.error.isSome)) :
    summarize others = { summarize records with undefined := (summarize others).undefined } := by
  have found (list : List (Record α)) : errors list = errors (list.filter (·.error.isSome)) := by
    rw [errors, errors, List.filterMap_filter]
    apply List.filterMap_congr
    intro r _
    cases computed : r.error <;> simp
  have measured (list : List (Record α)) : list.countP (fun r => r.error.isSome && r.calibrated) =
      (list.filter (·.error.isSome)).countP (·.calibrated) := by
    rw [List.countP_filter]
    simp only [Bool.and_comm]
  rw [summarize_eq others, summarize_eq records, found others, measured others, same, ← found records,
    ← measured records]

/-- What the counts of a summary say about its records, and when the other figures are there. -/
structure Summary.Counts (s : Summary α) (records : List (Record α)) : Prop where
  all : s.count + s.undefined = records.length
  calibrated : s.calibratedCount ≤ s.count
  meanError : s.meanError.isSome ↔ 0 < s.count
  maxError : s.maxError.isSome ↔ 0 < s.count
  minError : s.minError.isSome ↔ 0 < s.count

theorem counts_summarize (records : List (Record α)) : (summarize records).Counts records where
  all := count_add_undefined records
  calibrated := by
    rw [summarize_eq, errors, List.length_filterMap_eq_countP]
    apply List.countP_mono_left
    intro r _ both
    exact (Bool.and_eq_true_iff.1 both).1
  meanError := by
    rw [summarize_eq]
    by_cases none : (errors records).length = 0 <;> simp [none, Nat.pos_iff_ne_zero]
  maxError := by
    rw [summarize_eq]
    exact isSome_extreme_iff _
  minError := by
    rw [summarize_eq]
    exact isSome_extreme_iff _

end

/-! ### Summaries in exact arithmetic -/

variable {K : Type} [LinearOrder K] [ScalarField K] [ExactScalar K]

omit [ScalarField K] [ExactScalar K] in
/-- Over an ordered field the running maximum is the greatest distance. -/
theorem isGreatest_of_extreme {errors : List K} {x : K} (found : extreme max errors = some x) :
    IsGreatest {e | e ∈ errors} x := by
  have same : extreme max errors = errors.max? := by
    cases errors with
    | nil => rfl
    | cons e rest => rw [extreme_cons, List.max?_cons']
  rw [same, List.max?_eq_some_iff] at found
  exact ⟨found.1, fun e member => found.2 e member⟩

omit [ScalarField K] [ExactScalar K] in
theorem isLeast_of_extreme {errors : List K} {x : K} (found : extreme min errors = some x) :
    IsLeast {e | e ∈ errors} x := by
  have same : extreme min errors = errors.min? := by
    cases errors with
    | nil => rfl
    | cons e rest => rw [extreme_cons, List.min?_cons']
  rw [same, List.min?_eq_some_iff] at found
  exact ⟨found.1, fun e member => found.2 e member⟩

theorem larger_eq_max : (Scalar.larger : K → K → K) = max := funext₂ Scalar.larger_eq

theorem smaller_eq_min : (Scalar.smaller : K → K → K) = min := funext₂ Scalar.smaller_eq

theorem maxError_eq (records : List (Record K)) : (summarize records).maxError = extreme max (errors records) := by
  rw [summarize_eq, larger_eq_max]

theorem minError_eq (records : List (Record K)) : (summarize records).minError = extreme min (errors records) := by
  rw [summarize_eq, smaller_eq_min]

variable {records others : List (Record K)}

/-- What the figures of a summary say about its errors. -/
structure Summary.Spans (s : Summary K) (errors : List K) : Prop where
  greatest : ∀ x, s.maxError = some x → IsGreatest {e | e ∈ errors} x
  least : ∀ x, s.minError = some x → IsLeast {e | e ∈ errors} x
  total : ∀ mean, s.meanError = some mean → s.count * mean = errors.sum
  between : ∀ smallest mean largest, s.minError = some smallest → s.meanError = some mean →
    s.maxError = some largest → smallest ≤ mean ∧ mean ≤ largest

/-- The mean times the count is the sum of the distances. -/
theorem count_mul_meanError {mean : K} (computed : (summarize records).meanError = some mean) :
    (summarize records).count * mean = (errors records).sum := by
  obtain ⟨counted, rfl⟩ := meanError_eq_some_iff.1 computed
  rw [Scalar.zero_eq, ExactScalar.ofNat_eq, ← List.sum_eq_foldl, mul_div_cancel₀ _ (Nat.cast_ne_zero.2 counted)]

theorem spans_summarize (records : List (Record K)) : (summarize records).Spans (errors records) := by
  have greatest (x : K) (found : (summarize records).maxError = some x) : IsGreatest {e | e ∈ errors records} x :=
    isGreatest_of_extreme ((maxError_eq records).symm.trans found)
  have least (x : K) (found : (summarize records).minError = some x) : IsLeast {e | e ∈ errors records} x :=
    isLeast_of_extreme ((minError_eq records).symm.trans found)
  refine ⟨greatest, least, fun mean computed => count_mul_meanError computed, ?_⟩
  intro smallest mean largest low computed high
  -- The sum of the errors lies between as many of the smallest and as many of the largest.
  have total := count_mul_meanError computed
  have counted : (0 : K) < (summarize records).count :=
    Nat.cast_pos.2 (Nat.pos_of_ne_zero (meanError_eq_some_iff.1 computed).1)
  have below := List.card_nsmul_le_sum (errors records) smallest fun e member => (least _ low).2 member
  have above := List.sum_le_card_nsmul (errors records) largest fun e member => (greatest _ high).2 member
  rw [nsmul_eq_mul, ← count_eq_length_errors, ← total] at below above
  exact ⟨le_of_mul_le_mul_left below counted, le_of_mul_le_mul_left above counted⟩

/-- Records in another order have the same summary. -/
theorem summarize_perm (same : records.Perm others) : summarize records = summarize others := by
  have found : (errors records).Perm (errors others) := same.filterMap _
  have sum : (errors records).foldl (· + ·) Scalar.zero = (errors others).foldl (· + ·) Scalar.zero :=
    found.foldl_eq _
  rw [summarize_eq, summarize_eq, larger_eq_max, smaller_eq_min, found.length_eq, same.countP_eq, same.countP_eq,
    sum, extreme_perm found, extreme_perm found]

/-- A summary counts every record once, and has a mean and extremes as soon as it counts an error. Records without
    an error only show in their own count, and the counts of two lists add up. When nothing is rounded, the extremes
    are errors between which all errors and the mean lie, the mean spreads the sum evenly, those of two lists are
    the extremes of both, and the order of the records does not matter. -/
theorem summaries_add_up {α : Type} [Scalar α] :
    (∀ records : List (Record α), (summarize records).Counts records) ∧
    (∀ records others : List (Record α),
      others.filter (·.error.isSome) = records.filter (·.error.isSome) →
        summarize others = { summarize records with undefined := (summarize others).undefined }) ∧
    (∀ records others : List (Record α),
      (summarize (records ++ others)).count = (summarize records).count + (summarize others).count ∧
      (summarize (records ++ others)).undefined =
        (summarize records).undefined + (summarize others).undefined ∧
      (summarize (records ++ others)).calibratedCount =
        (summarize records).calibratedCount + (summarize others).calibratedCount) ∧
    (∀ records : List (Record K), (summarize records).Spans (errors records)) ∧
    (∀ records others : List (Record K),
      (summarize (records ++ others)).maxError =
        Option.merge max (summarize records).maxError (summarize others).maxError ∧
      (summarize (records ++ others)).minError =
        Option.merge min (summarize records).minError (summarize others).minError) ∧
    ∀ records others : List (Record K), records.Perm others → summarize records = summarize others := by
  refine ⟨counts_summarize, fun _ _ => summarize_congr, ?counts, spans_summarize, ?extremes,
    fun _ _ => summarize_perm⟩
  case counts =>
    intro records others
    simp only [summarize_eq, errors, List.filterMap_append, List.length_append, List.countP_append, and_self]
  case extremes =>
    intro records others
    simp only [maxError_eq, minError_eq, errors, List.filterMap_append, extreme_append, and_self]

/-- A record with an error and nothing else. -/
def Record.ofError (error : K) (calibrated : Bool) : Record K :=
  ⟨"gemm", none, none, none, none, some error, calibrated, none⟩

/-- Two errors and a record without one between them, which can be left out; the other two may change places. -/
theorem summaries_add_up_pair :
    let low : Record ℚ := .ofError (1 / 10) true
    let high : Record ℚ := .ofError (3 / 10) false
    let missing : Record ℚ := .undefined "axpy" none none "no calibration record"
    (summarize [low, missing, high]).Counts [low, missing, high] ∧
    summarize [low, high] = { summarize [low, missing, high] with undefined := 0 } ∧
    (summarize [low, missing, high]).maxError =
      Option.merge max (summarize [low]).maxError (summarize [missing, high]).maxError ∧
    (summarize [low, missing, high]).Spans [1 / 10, 3 / 10] ∧
    summarize [low, missing, high] = summarize [missing, high, low] := by
  intro low high missing
  obtain ⟨counts, deleted, -, spans, joined, permuted⟩ := summaries_add_up (K := ℚ) (α := ℚ)
  have rotated : ([low] ++ [missing, high]).Perm ([missing, high] ++ [low]) := List.perm_append_comm
  exact ⟨counts _, deleted [low, missing, high] [low, high] rfl, (joined [low] [missing, high]).1, spans _,
    permuted _ _ rotated⟩

end CycleCost.Accuracy
