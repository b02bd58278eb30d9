/-
Module: CycleCost.Proofs.Regression.Series
Purpose: Ascending lists. Sorting and dropping repeats gives the values of a list strictly ascending; pushing
  observations that already come ascending keeps their order, and the amounts of work of a strictly
  ascending series are all different.
Main exports: TellsApart, length_dropRepeats, pairwise_dropRepeats, mem_dropRepeats, pairwise_ascendingCounts,
  mem_ascendingCounts, ascendingCounts_eq, Series.observations_ofList, Series.perm_ofList,
  Series.distinctWork_ofList, Series.distinctWork_of_pairwise
-/
import CycleCost.Regression.Series
import Mathlib.Data.Finset.Card

namespace CycleCost

/-! ### Dropping repeats -/

/-- A test that tells the elements of a list apart by their keys. -/
def TellsApart {β κ : Type} (eq : β → β → Bool) (key : β → κ) (list : List β) : Prop :=
  ∀ b ∈ list, ∀ c ∈ list, eq b c = true ↔ key b = key c

section

variable {β κ : Type} {eq : β → β → Bool} {key : β → κ} {last c : β} {list : List β}

theorem TellsApart.tail (apart : TellsApart eq key (last :: list)) : TellsApart eq key list :=
  fun b first d second => apart b (List.mem_cons_of_mem _ first) d (List.mem_cons_of_mem _ second)

/-- The second element is passed over when its key is that of the first. -/
theorem TellsApart.head (apart : TellsApart eq key (last :: c :: list)) : eq c last = true ↔ key c = key last :=
  apart c (List.mem_cons_of_mem _ List.mem_cons_self) last List.mem_cons_self

theorem TellsApart.skip (apart : TellsApart eq key (last :: c :: list)) : TellsApart eq key (last :: list) := by
  have inside : ∀ b ∈ last :: list, b ∈ last :: c :: list := by
    intro b member
    simp only [List.mem_cons] at member ⊢
    exact member.imp_right Or.inr
  exact fun b first d second => apart b (inside b first) d (inside d second)

/-- Dropping repeats keeps every key. -/
theorem mem_map_dropRepeats_go (apart : TellsApart eq key (last :: list)) {k : κ} :
    k = key last ∨ k ∈ (dropRepeats.go eq last list).map key ↔ k = key last ∨ k ∈ list.map key := by
  induction list generalizing last with
  | nil => rfl
  | cons c rest ih =>
    rw [dropRepeats.go]
    split
    next same => rw [ih apart.skip, List.map_cons, List.mem_cons, apart.head.1 same, or_self_left]
    next => rw [List.map_cons, List.map_cons, List.mem_cons, List.mem_cons, ih apart.tail]

/-- Dropping repeats loses no key. -/
theorem mem_map_dropRepeats (apart : TellsApart eq key list) {k : κ} :
    k ∈ (dropRepeats eq list).map key ↔ k ∈ list.map key := by
  cases list with
  | nil => rfl
  | cons c rest =>
    rw [dropRepeats, List.map_cons, List.map_cons, List.mem_cons, List.mem_cons, mem_map_dropRepeats_go apart]

variable [LinearOrder κ]

/-- In a sorted list the keys ascend once the repeats are dropped. -/
theorem pairwise_map_dropRepeats_go (apart : TellsApart eq key (last :: list))
    (sorted : (last :: list).Pairwise (key · ≤ key ·)) :
    ((last :: dropRepeats.go eq last list).map key).Pairwise (· < ·) := by
  induction list generalizing last with
  | nil => exact List.pairwise_singleton _ _
  | cons c rest ih =>
    obtain ⟨above, tail⟩ := List.pairwise_cons.1 sorted
    rw [dropRepeats.go]
    split
    next => exact ih apart.skip (sorted.sublist ((List.sublist_cons_self c rest).cons_cons last))
    next other =>
      have below : key last < key c := (above c List.mem_cons_self).lt_of_ne' (mt apart.head.2 other)
      have later := ih apart.tail tail
      rw [List.map_cons]
      refine List.pairwise_cons.2 ⟨fun k member => ?_, later⟩
      rcases List.mem_cons.1 member with rfl | beyond
      · exact below
      · exact below.trans ((List.pairwise_cons.1 later).1 k beyond)

/-- Where the keys ascend, those left without repeats are strictly ascending. -/
theorem pairwise_map_dropRepeats (apart : TellsApart eq key list) (sorted : list.Pairwise (key · ≤ key ·)) :
    ((dropRepeats eq list).map key).Pairwise (· < ·) := by
  cases list with
  | nil => exact List.Pairwise.nil
  | cons c rest => exact pairwise_map_dropRepeats_go apart sorted

/-- Where the keys ascend, as many elements are left as there are different keys. -/
theorem length_dropRepeats (apart : TellsApart eq key list) (sorted : list.Pairwise (key · ≤ key ·)) :
    (dropRepeats eq list).length = (list.map key).toFinset.card := by
  have different : ((dropRepeats eq list).map key).Nodup := (pairwise_map_dropRepeats apart sorted).imp ne_of_lt
  have same : ((dropRepeats eq list).map key).toFinset = (list.map key).toFinset := by
    apply Finset.ext
    intro k
    rw [List.mem_toFinset, List.mem_toFinset, mem_map_dropRepeats apart]
  rw [← same, List.toFinset_card_of_nodup different, List.length_map]

end

section

variable {list : List UInt64}

/-- Equal counts are the same. -/
theorem tellsApart_beq (list : List UInt64) : TellsApart (· == ·) id list := fun _ _ _ _ => beq_iff_eq

theorem tellsApart_toNat (list : List UInt64) : TellsApart (· == ·) UInt64.toNat list :=
  fun _ _ _ _ => beq_iff_eq.trans UInt64.toNat_inj.symm

/-- Dropping repeats loses no value. -/
theorem mem_dropRepeats {b : UInt64} : b ∈ dropRepeats (· == ·) list ↔ b ∈ list := by
  have keys := mem_map_dropRepeats (tellsApart_beq list) (k := b)
  rwa [List.map_id, List.map_id] at keys

/-- Dropping the repeats of an ascending list leaves it strictly ascending. -/
theorem pairwise_dropRepeats (sorted : list.Pairwise (· ≤ ·)) :
    (dropRepeats (· == ·) list).Pairwise (· < ·) := by
  have keys := pairwise_map_dropRepeats (tellsApart_toNat list) sorted
  rw [List.pairwise_map] at keys
  exact keys

end

section

variable {β : Type} {eq : β → β → Bool} {list : List β}

theorem dropRepeats_go_of_pairwise {last : β}
    (different : (last :: list).Pairwise fun x y => eq y x = false) :
    dropRepeats.go eq last list = list := by
  induction list generalizing last with
  | nil => rfl
  | cons c rest ih =>
    obtain ⟨first, others⟩ := List.pairwise_cons.1 different
    rw [dropRepeats.go, first c List.mem_cons_self, if_neg Bool.false_ne_true, ih others]

/-- A list without equal elements has no repeats to drop. -/
theorem dropRepeats_of_pairwise (different : list.Pairwise fun x y => eq y x = false) :
    dropRepeats eq list = list := by
  cases list with
  | nil => rfl
  | cons c rest => rw [dropRepeats, dropRepeats_go_of_pairwise different]

end

/-! ### Configured counts -/

/-- Ascending counts are strictly ascending. -/
theorem pairwise_ascendingCounts (counts : List UInt64) :
    (ascendingCounts counts).Pairwise (· < ·) := by
  have sorted : (counts.mergeSort (· ≤ ·)).Pairwise fun a b => decide (a ≤ b) = true :=
    List.pairwise_mergeSort (fun a b c => by simpa using UInt64.le_trans)
      (fun a b => by simpa using UInt64.le_total a b) counts
  exact pairwise_dropRepeats (sorted.imp of_decide_eq_true)

/-- Ascending counts are the given ones. -/
theorem mem_ascendingCounts {count : UInt64} {counts : List UInt64} :
    count ∈ ascendingCounts counts ↔ count ∈ counts := by
  rw [ascendingCounts, mem_dropRepeats, List.mem_mergeSort]

/-- Ascending lists with the same elements are equal. -/
theorem eq_of_ascending {list other : List UInt64} (ascending : list.Pairwise (· < ·))
    (ascending' : other.Pairwise (· < ·)) (same : ∀ count, count ∈ list ↔ count ∈ other) :
    list = other := by
  have unique : list.Nodup := ascending.imp UInt64.ne_of_lt
  have unique' : other.Nodup := ascending'.imp UInt64.ne_of_lt
  apply List.Perm.eq_of_pairwise _ ascending ascending' ((List.perm_ext_iff_of_nodup unique unique').2 same)
  intro a b _ _ below above
  exact absurd (UInt64.lt_trans below above) (UInt64.lt_irrefl a)

/-- Counts in order are known by their values. -/
theorem ascendingCounts_eq {counts list : List UInt64} (ascending : list.Pairwise (· < ·))
    (same : ∀ count, count ∈ counts ↔ count ∈ list) : ascendingCounts counts = list := by
  apply eq_of_ascending (pairwise_ascendingCounts counts) ascending
  intro count
  rw [mem_ascendingCounts, same]

/-! ### Series of ascending observations -/

variable {α : Type}

/-- An observation with at least the work of all others comes last. -/
theorem insertByWork_of_le {o : Observation α} {list : List (Observation α)}
    (below : ∀ p ∈ list, p.workUnits ≤ o.workUnits) : insertByWork o list = list ++ [o] := by
  induction list with
  | nil => rfl
  | cons p rest ih =>
    obtain ⟨first, others⟩ := List.forall_mem_cons.1 below
    rw [insertByWork, if_pos first, ih others, List.cons_append]

theorem perm_insertByWork (o : Observation α) (list : List (Observation α)) :
    (insertByWork o list).Perm (o :: list) := by
  induction list with
  | nil => exact .rfl
  | cons p rest ih =>
    rw [insertByWork]
    split
    · exact (ih.cons p).trans (.swap o p rest)
    · exact .rfl

/-- Where an observation is put only depends on its work. -/
theorem insertByWork_map {f : Observation α → Observation α} (keeps : ∀ o, (f o).workUnits = o.workUnits)
    (o : Observation α) (list : List (Observation α)) :
    insertByWork (f o) (list.map f) = (insertByWork o list).map f := by
  induction list with
  | nil => rfl
  | cons p rest ih =>
    rw [List.map_cons, insertByWork, insertByWork, keeps, keeps, ih]
    split <;> rfl

namespace Series

/-- Observations may be changed before or after they are put in order, if their work stays. -/
theorem observations_ofList_map {f : Observation α → Observation α}
    (keeps : ∀ o, (f o).workUnits = o.workUnits) (list : List (Observation α)) :
    (ofList (list.map f)).observations = (ofList list).observations.map f := by
  have pushed (s s' : Series α) (same : s'.observations = s.observations.map f) :
      ((list.map f).foldl push s').observations = (list.foldl push s).observations.map f := by
    induction list generalizing s s' with
    | nil => exact same
    | cons o rest ih =>
      apply ih (s.push o) (s'.push (f o))
      rw [push, push]
      dsimp only
      rw [same, insertByWork_map keeps]
  exact pushed empty empty rfl

/-- Observations pushed in ascending order stand in that order. -/
theorem observations_foldl_push {list : List (Observation α)} {s : Series α}
    (ascending : Ascending (s.observations ++ list)) :
    (list.foldl push s).observations = s.observations ++ list := by
  induction list generalizing s with
  | nil => exact (List.append_nil _).symm
  | cons o rest ih =>
    have below : ∀ p ∈ s.observations, p.workUnits ≤ o.workUnits := fun p member =>
      (List.pairwise_append.1 ascending).2.2 p member o List.mem_cons_self
    have pushed : (s.push o).observations = s.observations ++ [o] := insertByWork_of_le below
    rw [List.append_cons, ← pushed] at ascending
    rw [List.foldl_cons, ih ascending, pushed, ← List.append_cons]

/-- Observations that come ascending are kept as they come. -/
theorem observations_ofList {list : List (Observation α)} (ascending : Ascending list) :
    (ofList list).observations = list :=
  observations_foldl_push (s := empty) ascending

/-- No observation is lost or made by pushing. -/
theorem perm_foldl_push (list : List (Observation α)) (s : Series α) :
    (list.foldl push s).observations.Perm (s.observations ++ list) := by
  induction list generalizing s with
  | nil => rw [List.append_nil, List.foldl_nil]
  | cons o rest ih =>
    have pushed : ((s.push o).observations ++ rest).Perm (o :: s.observations ++ rest) :=
      (perm_insertByWork o s.observations).append_right rest
    exact (ih (s.push o)).trans (pushed.trans List.perm_middle.symm)

/-- A series holds the observations that it was made from, in another order. -/
theorem perm_ofList (list : List (Observation α)) : (ofList list).observations.Perm list :=
  perm_foldl_push list empty

/-- In a series equal amounts of work stand together, so the different ones are counted by passing over
    repeats. -/
theorem distinctWork_eq_card (s : Series α) :
    s.distinctWork = (s.observations.map (·.workUnits)).toFinset.card := by
  have sorted : (s.observations.map (·.workUnits)).Pairwise (· ≤ ·) := List.pairwise_map.2 s.ascending
  have different : (dropRepeats (· == ·) (s.observations.map (·.workUnits))).Nodup :=
    (pairwise_dropRepeats sorted).imp UInt64.ne_of_lt
  have same : (dropRepeats (· == ·) (s.observations.map (·.workUnits))).toFinset =
      (s.observations.map (·.workUnits)).toFinset := by
    apply Finset.ext
    intro work
    rw [List.mem_toFinset, List.mem_toFinset, mem_dropRepeats]
  rw [distinctWork, ← same, List.toFinset_card_of_nodup different]

/-- The distinct work of a series is the number of different amounts pushed. -/
theorem distinctWork_ofList (list : List (Observation α)) :
    (ofList list).distinctWork = (list.map (·.workUnits)).toFinset.card := by
  rw [distinctWork_eq_card, List.toFinset_eq_of_perm _ _ ((perm_ofList list).map _)]

theorem distinctWork_le_size (s : Series α) : s.distinctWork ≤ s.size := by
  rw [distinctWork_eq_card, size, ← List.length_map (·.workUnits)]
  exact List.toFinset_card_le _

/-- A strictly ascending series has as many different amounts of work as observations. -/
theorem distinctWork_of_pairwise {s : Series α}
    (strict : s.observations.Pairwise fun p q => p.workUnits < q.workUnits) :
    s.distinctWork = s.size := by
  have different : (s.observations.map (·.workUnits)).Pairwise fun x y => (y == x) = false :=
    List.pairwise_map.2 (strict.imp fun below => beq_eq_false_iff_ne.2 (UInt64.ne_of_lt below).symm)
  rw [distinctWork, dropRepeats_of_pairwise different, List.length_map, size]

end Series

end CycleCost
