/-
Module: CycleCost.Proofs.Regression.Ordering
Purpose: Pushing observations is a stable sort. A push puts an observation at the one place that parts the list
  into what has at most its work and what has more, so a list that ascends goes on ascending, and what comes
  later stands later among equals. A list with these two properties is the only one of its elements. Which
  observations came first matters only to those of equal work.
Main exports: StablySorted, StablySorted.unique, PartsAt, Series.stablySorted_foldl_push,
  Series.pushes_sort_stably
-/
import CycleCost.Proofs.Regression.Series
import CycleCost.Regression.Backend

namespace CycleCost

variable {α : Type}

/-! ### Stably sorted lists -/

/-- The observations of one amount of work, in the order of the list. -/
def ofWork (work : UInt64) (list : List (Observation α)) : List (Observation α) :=
  list.filter (·.workUnits == work)

/-- The elements of a list in ascending order of work, those of equal work in the order of the list. -/
structure StablySorted (sorted list : List (Observation α)) : Prop where
  perm : sorted.Perm list
  ascending : Ascending sorted
  stable : ∀ work, ofWork work sorted = ofWork work list

theorem mem_ofWork {work : UInt64} {list : List (Observation α)} {o : Observation α} :
    o ∈ ofWork work list ↔ o ∈ list ∧ o.workUnits = work := by
  simp [ofWork]

theorem ofWork_append (work : UInt64) (list later : List (Observation α)) :
    ofWork work (list ++ later) = ofWork work list ++ ofWork work later :=
  List.filter_append ..

theorem ofWork_cons_self (o : Observation α) (list : List (Observation α)) :
    ofWork o.workUnits (o :: list) = o :: ofWork o.workUnits list :=
  List.filter_cons_of_pos (beq_self_eq_true _)

theorem ofWork_cons_of_ne {o : Observation α} {work : UInt64} (other : o.workUnits ≠ work)
    (list : List (Observation α)) : ofWork work (o :: list) = ofWork work list :=
  List.filter_cons_of_neg (by simpa using other)

theorem ofWork_eq_nil {work : UInt64} {list : List (Observation α)}
    (none : ∀ o ∈ list, o.workUnits ≠ work) : ofWork work list = [] :=
  List.filter_eq_nil_iff.2 fun o member => by simpa using none o member

/-- The first of an ascending list has the least work. -/
theorem Ascending.head_le {p o : Observation α} {rest : List (Observation α)} (ascending : Ascending (p :: rest))
    (member : o ∈ p :: rest) : p.workUnits ≤ o.workUnits := by
  rcases List.mem_cons.1 member with rfl | later
  · exact UInt64.le_refl _
  · exact (List.pairwise_cons.1 ascending).1 o later

/-- Lists with the same observations of each amount of work have the same elements. -/
theorem mem_iff_of_ofWork {list other : List (Observation α)} (same : ∀ work, ofWork work list = ofWork work other)
    (o : Observation α) : o ∈ list ↔ o ∈ other := by
  have equal := same o.workUnits
  constructor
  · intro member
    exact (mem_ofWork.1 (equal ▸ mem_ofWork.2 ⟨member, rfl⟩)).1
  · intro member
    exact (mem_ofWork.1 (equal ▸ mem_ofWork.2 ⟨member, rfl⟩)).1

/-- An ascending list is known by what it has of each amount of work. -/
theorem Ascending.eq_of_ofWork {list other : List (Observation α)} (ascending : Ascending list)
    (ascending' : Ascending other) (same : ∀ work, ofWork work list = ofWork work other) : list = other := by
  have shared := mem_iff_of_ofWork same
  induction list generalizing other with
  | nil =>
    have none : ∀ o, o ∉ other := fun o member => List.not_mem_nil ((shared o).2 member)
    exact (List.eq_nil_iff_forall_not_mem.2 none).symm
  | cons p rest ih =>
    cases other with
    | nil => exact absurd ((shared p).1 List.mem_cons_self) List.not_mem_nil
    | cons q rest' =>
      -- Both first elements have the least work, and both lists begin with the same one of this work.
      have below := ascending.head_le ((shared q).2 List.mem_cons_self)
      have above := ascending'.head_le ((shared p).1 List.mem_cons_self)
      have work : p.workUnits = q.workUnits := UInt64.le_antisymm below above
      have first := same p.workUnits
      rw [ofWork_cons_self, work, ofWork_cons_self] at first
      obtain ⟨rfl, tail⟩ := List.cons.inj first
      have tails : ∀ work, ofWork work rest = ofWork work rest' := by
        intro work
        by_cases here : p.workUnits = work
        · exact here ▸ tail
        · have whole := same work
          rwa [ofWork_cons_of_ne here, ofWork_cons_of_ne here] at whole
      congr 1
      exact ih (List.pairwise_cons.1 ascending).2 (List.pairwise_cons.1 ascending').2 tails
        (mem_iff_of_ofWork tails)

/-- Only one arrangement of a list is stably sorted. -/
theorem StablySorted.unique {sorted other list : List (Observation α)} (first : StablySorted sorted list)
    (second : StablySorted other list) : sorted = other := by
  apply first.ascending.eq_of_ofWork second.ascending
  intro work
  exact (first.stable work).trans (second.stable work).symm

/-- The comparison by work. -/
def byWork (p q : Observation α) : Bool := p.workUnits ≤ q.workUnits

theorem byWork_iff {p q : Observation α} : byWork p q = true ↔ p.workUnits ≤ q.workUnits := decide_eq_true_iff

/-- A merge sort by work is stable. -/
theorem stablySorted_mergeSort (list : List (Observation α)) : StablySorted (list.mergeSort byWork) list := by
  have trans (p q r : Observation α) (first : byWork p q = true) (second : byWork q r = true) :
      byWork p r = true := by
    rw [byWork_iff] at first second ⊢
    exact UInt64.le_trans first second
  have total (p q : Observation α) : (byWork p q || byWork q p) = true := by
    rw [Bool.or_eq_true, byWork_iff, byWork_iff]
    exact UInt64.le_total _ _
  have perm := List.mergeSort_perm list byWork
  refine ⟨perm, (List.pairwise_mergeSort trans total list).imp byWork_iff.1, fun work => ?_⟩
  -- Observations of equal work already ascend, so the sort keeps them as a sublist, and it has no others.
  have level : (ofWork work list).Pairwise fun p q => byWork p q = true := by
    apply List.pairwise_of_forall_mem_list
    intro p first q second
    rw [byWork_iff, (mem_ofWork.1 first).2, (mem_ofWork.1 second).2]
    exact UInt64.le_refl _
  have kept : (ofWork work list).Sublist (ofWork work (list.mergeSort byWork)) := by
    have sublist := (List.sublist_mergeSort trans total level List.filter_sublist).filter (·.workUnits == work)
    simpa only [ofWork, List.filter_filter, Bool.and_self] using sublist
  exact (kept.eq_of_length (perm.filter _).length_eq.symm).symm

/-! ### One push -/

/-- The place of a list up to which a test succeeds and from which on it fails. A search by halving finds such a
    place where there is one. -/
structure PartsAt {β : Type} (test : β → Prop) (list : List β) (place : Nat) : Prop where
  inside : place ≤ list.length
  before : ∀ b ∈ list.take place, test b
  after : ∀ b ∈ list.drop place, ¬ test b

/-- The place where a test starts to fail is unique. -/
theorem PartsAt.le {β : Type} {test : β → Prop} {list : List β} {place other : Nat}
    (parts : PartsAt test list place) (parts' : PartsAt test list other) : place ≤ other := by
  by_contra less
  have bound : other < list.length := (Nat.lt_of_not_le less).trans_le parts.inside
  have before : list[other] ∈ list.take place :=
    List.mem_take_iff_getElem.2 ⟨other, by omega, rfl⟩
  have after : list[other] ∈ list.drop other :=
    List.mem_drop_iff_getElem.2 ⟨0, by omega, by simp⟩
  exact parts'.after _ after (parts.before _ before)

/-- No list has two such places. -/
theorem PartsAt.unique {β : Type} {test : β → Prop} {list : List β} {place other : Nat}
    (parts : PartsAt test list place) (parts' : PartsAt test list other) : place = other :=
  Nat.le_antisymm (parts.le parts') (parts'.le parts)

/-- An ascending list is parted by every amount of work, and there an observation of this work is put. -/
theorem exists_place {list : List (Observation α)} (ascending : Ascending list) (o : Observation α) :
    ∃ place, PartsAt (·.workUnits ≤ o.workUnits) list place ∧ insertByWork o list = list.insertIdx place o := by
  induction list with
  | nil => exact ⟨0, ⟨Nat.le_refl 0, by simp, by simp⟩, rfl⟩
  | cons p rest ih =>
    rw [insertByWork]
    split
    case isTrue small =>
      obtain ⟨place, parts, put⟩ := ih (List.pairwise_cons.1 ascending).2
      refine ⟨place + 1, ⟨Nat.succ_le_succ parts.inside, ?_, parts.after⟩, by rw [put, List.insertIdx_succ_cons]⟩
      rw [List.take_succ_cons]
      exact List.forall_mem_cons.2 ⟨small, parts.before⟩
    case isFalse large =>
      refine ⟨0, ⟨Nat.zero_le _, by simp, ?_⟩, rfl⟩
      intro q member below
      exact large (UInt64.le_trans (ascending.head_le member) below)

theorem ofWork_cons_congr {work : UInt64} {list other : List (Observation α)}
    (same : ofWork work list = ofWork work other) (p : Observation α) :
    ofWork work (p :: list) = ofWork work (p :: other) := by
  simp only [ofWork, List.filter_cons] at same ⊢
  rw [same]

/-- Among observations of equal work the new one comes last. -/
theorem ofWork_insertByWork {list : List (Observation α)} (ascending : Ascending list) (o : Observation α)
    (work : UInt64) : ofWork work (insertByWork o list) = ofWork work (list ++ [o]) := by
  induction list with
  | nil => rfl
  | cons p rest ih =>
    rw [insertByWork]
    split
    case isTrue small => exact ofWork_cons_congr (ih (List.pairwise_cons.1 ascending).2) p
    case isFalse large =>
      rw [ofWork_append]
      by_cases here : o.workUnits = work
      · have none : ofWork work (p :: rest) = [] := by
          apply ofWork_eq_nil
          intro q member same
          exact large (UInt64.le_trans (ascending.head_le member) (here ▸ same ▸ UInt64.le_refl _))
        subst here
        rw [none, ofWork_cons_self, none, List.nil_append, ofWork_cons_self]
        rfl
      · rw [ofWork_cons_of_ne here, ofWork_cons_of_ne here]
        exact (List.append_nil _).symm

namespace Series

/-- A push keeps a series stably sorted. -/
theorem stablySorted_push {s : Series α} {list : List (Observation α)} (sorted : StablySorted s.observations list)
    (o : Observation α) : StablySorted (s.push o).observations (list ++ [o]) := by
  refine ⟨?perm, (s.push o).ascending, ?stable⟩
  case perm => exact (perm_insertByWork o _).trans ((sorted.perm.cons o).trans (List.perm_append_singleton o list).symm)
  case stable =>
    intro work
    have pushed : ofWork work (s.push o).observations = ofWork work (s.observations ++ [o]) :=
      ofWork_insertByWork s.ascending o work
    rw [pushed, ofWork_append, ofWork_append, sorted.stable]

/-- Pushes keep a series stably sorted, in the order in which they come. -/
theorem stablySorted_foldl_push {s : Series α} {list : List (Observation α)}
    (sorted : StablySorted s.observations list) (pushed : List (Observation α)) :
    StablySorted (pushed.foldl push s).observations (list ++ pushed) := by
  induction pushed generalizing s list with
  | nil => rwa [List.append_nil]
  | cons o rest ih =>
    rw [List.append_cons]
    exact ih (stablySorted_push sorted o)

/-- The observations of a series are sorted already. -/
theorem stablySorted_self (s : Series α) : StablySorted s.observations s.observations :=
  ⟨.refl _, s.ascending, fun _ => rfl⟩

theorem ext {s s' : Series α} (same : s.observations = s'.observations) : s = s' := by
  cases s
  cases s'
  cases same
  rfl

/-- Where all amounts of work differ, the order of the pushes does not matter. -/
theorem foldl_push_eq_of_perm {s : Series α} {pushed other : List (Observation α)}
    (different : ((s.observations ++ pushed).map (·.workUnits)).Nodup) (perm : other.Perm pushed) :
    other.foldl push s = pushed.foldl push s := by
  have whole := perm_foldl_push pushed s
  have same : (other.foldl push s).observations.Perm (pushed.foldl push s).observations :=
    (perm_foldl_push other s).trans ((perm.append_left s.observations).trans whole.symm)
  apply ext
  apply same.eq_of_pairwise _ (other.foldl push s).ascending (pushed.foldl push s).ascending
  intro p q first second below above
  have member : p ∈ s.observations ++ pushed := (same.trans whole).mem_iff.1 first
  exact List.inj_on_of_nodup_map different member (whole.mem_iff.1 second) (UInt64.le_antisymm below above)

/-! ### Any number of pushes -/

/-- After any pushes a series is the stable sort of everything that was pushed. Each push has one place to put its
    observation at, and puts it there. The different amounts of work are counted, equal ones once. If no amount
    of work comes twice, the pushes may come in any order: the series is the same, and so is its line, by whichever
    backend. -/
theorem pushes_sort_stably [Scalar α] (s : Series α) (pushed : List (Observation α)) :
    let list := s.observations ++ pushed
    let series := pushed.foldl push s
    StablySorted series.observations list ∧ series.observations = list.mergeSort byWork ∧
    (∀ o, ∃ place,
      (∀ other, PartsAt (·.workUnits ≤ o.workUnits) series.observations other ↔ other = place) ∧
      (series.push o).observations = series.observations.insertIdx place o) ∧
    series.distinctWork = (list.map (·.workUnits)).toFinset.card ∧
    ((list.map (·.workUnits)).Nodup → ∀ other : List (Observation α), other.Perm pushed →
      other.foldl push s = series ∧
      ∀ b : Regression.Backend, b.fitSeries (other.foldl push s) = b.fitSeries series) := by
  intro list series
  have sorted : StablySorted series.observations list := stablySorted_foldl_push s.stablySorted_self pushed
  refine ⟨sorted, sorted.unique (stablySorted_mergeSort list), ?place, ?count, ?order⟩
  case place =>
    intro o
    obtain ⟨place, parts, put⟩ := exists_place series.ascending o
    refine ⟨place, fun other => ⟨fun parts' => parts'.unique parts, ?_⟩, put⟩
    rintro rfl
    exact parts
  case count => rw [distinctWork_eq_card, List.toFinset_eq_of_perm _ _ (sorted.perm.map _)]
  case order =>
    intro different other perm
    have same := foldl_push_eq_of_perm different perm
    exact ⟨same, fun b => congrArg b.fitSeries same⟩

/-- Timings of four thousand, one thousand and two thousand units of work. -/
def threeTimings : List (Observation Float) := [⟨4000, 25, 0, 1⟩, ⟨1000, 10, 0, 1⟩, ⟨2000, 15, 0, 1⟩]

/-- The three timings have the same line in both orders. -/
theorem pushes_sort_stably_three : (threeTimings.map (·.workUnits)).Nodup ∧
    threeTimings.reverse.Perm threeTimings ∧
    Regression.Backend.linalg.fitSeries (ofList threeTimings.reverse) =
      Regression.Backend.linalg.fitSeries (ofList threeTimings) ∧
    (ofList threeTimings).distinctWork = 3 := by
  have different : (threeTimings.map (·.workUnits)).Nodup := by decide
  have perm : threeTimings.reverse.Perm threeTimings := List.reverse_perm _
  obtain ⟨-, -, -, count, order⟩ := pushes_sort_stably empty threeTimings
  exact ⟨different, perm, (order different _ perm).2 _, count.trans (by decide)⟩

end Series

end CycleCost
