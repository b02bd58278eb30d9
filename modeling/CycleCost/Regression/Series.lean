/-
Module: CycleCost.Regression.Series
Purpose: The observations of one benchmark, kept ascending by work. Observations of equal work stay in the
  order in which they came.
Main exports: Observation, Series, Series.push, Series.ofList, Series.distinctWork, dropRepeats
-/
import CycleCost.Scalar

namespace CycleCost

/-- The reduced timing of one program. -/
structure Observation (α : Type) where
  workUnits : UInt64
  timeMs : α
  deviationMs : α
  /-- Timings that were averaged. -/
  runsUsed : Nat

/-- A list without the elements that equal the one kept before them. -/
def dropRepeats {β : Type} (eq : β → β → Bool) : List β → List β
  | [] => []
  | x :: rest => x :: go x rest
where
  /-- The rest of the list after the kept element `last`. -/
  go (last : β) : List β → List β
    | [] => []
    | y :: rest => if eq y last then go last rest else y :: go y rest

/-- Counts in ascending order, each once. -/
def ascendingCounts (counts : List UInt64) : List UInt64 :=
  dropRepeats (· == ·) (counts.mergeSort (· ≤ ·))

variable {α : Type}

/-- An observation put behind all those of at most its work. -/
def insertByWork (o : Observation α) : List (Observation α) → List (Observation α)
  | [] => [o]
  | p :: rest => if p.workUnits ≤ o.workUnits then p :: insertByWork o rest else o :: p :: rest

/-- An insertion adds its observation and no other. -/
theorem mem_insertByWork {o q : Observation α} {list : List (Observation α)} :
    q ∈ insertByWork o list ↔ q = o ∨ q ∈ list := by
  induction list with
  | nil => simp [insertByWork]
  | cons p rest ih =>
    rw [insertByWork]
    split
    · simp only [List.mem_cons, ih]
      exact or_left_comm
    · simp

/-- Ascending by work. -/
def Ascending (list : List (Observation α)) : Prop :=
  list.Pairwise fun p q => p.workUnits ≤ q.workUnits

/-- Insertion keeps a list ascending. -/
theorem Ascending.insertByWork {o : Observation α} {list : List (Observation α)}
    (h : Ascending list) : Ascending (insertByWork o list) := by
  induction list with
  | nil => simp [CycleCost.insertByWork, Ascending]
  | cons p rest ih =>
    obtain ⟨below, tail⟩ := List.pairwise_cons.1 h
    rw [CycleCost.insertByWork]
    split
    · next small =>
      refine List.pairwise_cons.2 ⟨fun q member => ?_, ih tail⟩
      rcases mem_insertByWork.1 member with rfl | old
      · exact small
      · exact below q old
    · next large =>
      have order : o.workUnits ≤ p.workUnits := UInt64.le_of_lt (UInt64.not_le.1 large)
      refine List.pairwise_cons.2 ⟨fun q member => ?_, h⟩
      rcases List.mem_cons.1 member with rfl | old
      · exact order
      · exact UInt64.le_trans order (below q old)

/-- The observations of one benchmark, ascending by work. -/
structure Series (α : Type) where
  observations : List (Observation α)
  ascending : Ascending observations

namespace Series

/-- A series without observations. -/
def empty : Series α := ⟨[], List.Pairwise.nil⟩

/-- One more observation. -/
def push (s : Series α) (o : Observation α) : Series α :=
  ⟨insertByWork o s.observations, s.ascending.insertByWork⟩

/-- The series of observations that come one after another. -/
def ofList (list : List (Observation α)) : Series α := list.foldl push empty

/-- The number of observations. -/
def size (s : Series α) : Nat := s.observations.length

/-- The number of different amounts of work; equal ones stand together. -/
def distinctWork (s : Series α) : Nat :=
  (dropRepeats (· == ·) (s.observations.map (·.workUnits))).length

/-- The amounts of work as numbers. -/
def abscissas [Scalar α] (s : Series α) : List α :=
  s.observations.map fun o => Scalar.ofNat o.workUnits.toNat

def ordinates (s : Series α) : List α := s.observations.map (·.timeMs)

end Series

end CycleCost
