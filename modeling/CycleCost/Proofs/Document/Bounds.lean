/-
Module: CycleCost.Proofs.Document.Bounds
Purpose: What a text can hold: whichever text is read, every float in its value is finite and every integer
  has at most 64 bits. The reader refuses nothing else, so a value may still have unusable parts.
Main exports: bounded_of_parse
-/
import CycleCost.Document.Json.Reader
import CycleCost.Proofs.Document.Parts

namespace CycleCost.Document

variable {float : Decimal.Numeral → Float}

theorem bounded_ofNumeral (n : Decimal.Numeral) : Bounded (Datum.ofNumeral float n) := by
  unfold Datum.ofNumeral
  dsimp only
  split
  case isTrue exact =>
    simp only [Bool.and_eq_true, decide_eq_true_eq] at exact
    exact .integer exact.1.1.2 exact.1.2
  case isFalse =>
    split
    case isTrue finite => exact .real finite
    case isFalse => exact .unusable

namespace Json

/-- The contents of an open container are within the bounds. -/
def Frame.Bounded : Frame → Prop
  | .list items => ∀ d ∈ items, Document.Bounded d
  | .table members | .member members _ => ∀ m ∈ members, Document.Bounded m.2

namespace State

/-- All that has been read is within the bounds. -/
structure Bounded (s : State) : Prop where
  stack : ∀ f ∈ s.stack, f.Bounded
  result : ∀ d, s.expected = .nothing d → Document.Bounded d

variable {s' : State} {stack : List Frame}

/-- Members that all have a name keep their values. -/
theorem exists_of_named {ms : List (Option String × Datum)} {named : List (String × Datum)}
    (found : (ms.mapM fun m => m.1.map fun s => (s, m.2)) = some named) :
    ∀ m ∈ named, ∃ m' ∈ ms, m'.2 = m.2 := by
  induction ms generalizing named with
  | nil =>
    simp only [List.mapM_nil, Option.pure_def, Option.some.injEq] at found
    simp [← found]
  | cons m ms ih =>
    rcases m with ⟨_ | name, d⟩
    · simp [List.mapM_cons] at found
    · simp only [List.mapM_cons, Option.map_some, Option.bind_eq_bind, Option.bind_some,
        Option.bind_eq_some_iff, Option.pure_def, Option.some.injEq] at found
      obtain ⟨rest, others, rfl⟩ := found
      intro m member
      rcases List.mem_cons.1 member with rfl | later
      · exact ⟨_, List.mem_cons_self, rfl⟩
      · obtain ⟨m', there, same⟩ := ih others m later
        exact ⟨m', List.mem_cons_of_mem _ there, same⟩

/-- A table of bounded members is bounded, whichever of them its repeats keep. -/
theorem bounded_closeTable {members : List (Option String × Datum)}
    (each : ∀ m ∈ members, Document.Bounded m.2) : Document.Bounded (closeTable members) := by
  unfold closeTable
  split
  · next named found =>
    refine .table fun m member => ?_
    obtain ⟨m', there, same⟩ := exists_of_named found m (List.mem_reverse.1 member)
    exact same ▸ each m' there
  · exact .unusable

/-- A complete value joins its frame within the bounds. -/
theorem bounded_complete {d : Datum} (value : Document.Bounded d) (frames : ∀ f ∈ stack, f.Bounded)
    (done : complete d stack = some s') : s'.Bounded := by
  match stack, done with
  | [], done =>
    cases done
    exact ⟨nofun, fun _ h => by cases h; exact value⟩
  | .list items :: rest, done =>
    cases done
    rw [List.forall_mem_cons] at frames
    refine ⟨List.forall_mem_cons.2 ⟨?_, frames.2⟩, nofun⟩
    exact List.forall_mem_cons.2 ⟨value, frames.1⟩
  | .member members name :: rest, done =>
    cases done
    rw [List.forall_mem_cons] at frames
    refine ⟨List.forall_mem_cons.2 ⟨?_, frames.2⟩, nofun⟩
    exact List.forall_mem_cons.2 ⟨value, frames.1⟩

/-- A token read for a value keeps the bounds. -/
theorem bounded_stepValue {t : Token} (frames : ∀ f ∈ stack, f.Bounded)
    (done : stepValue float stack t = some s') : s'.Bounded := by
  cases t with
  | listBegin =>
    cases done
    exact ⟨List.forall_mem_cons.2 ⟨nofun, frames⟩, nofun⟩
  | tableBegin =>
    cases done
    exact ⟨List.forall_mem_cons.2 ⟨nofun, frames⟩, nofun⟩
  | null => exact bounded_complete .null frames done
  | bool b => exact bounded_complete (.bool b) frames done
  | number n => exact bounded_complete (bounded_ofNumeral n) frames done
  | text content =>
    cases content with
    | none => exact bounded_complete .unusable frames done
    | some s => exact bounded_complete (.text s) frames done
  | listEnd => cases done
  | tableEnd => cases done
  | colon => cases done
  | comma => cases done

theorem bounded_stepName {t : Token} (frames : ∀ f ∈ stack, f.Bounded)
    (done : stepName stack t = some s') : s'.Bounded := by
  unfold stepName at done
  split at done
  · cases done
    rw [List.forall_mem_cons] at frames
    exact ⟨List.forall_mem_cons.2 frames, nofun⟩
  · cases done

theorem bounded_stepSeparator {t : Token} (frames : ∀ f ∈ stack, f.Bounded)
    (done : stepSeparator stack t = some s') : s'.Bounded := by
  unfold stepSeparator at done
  split at done
  · cases done
    exact ⟨frames, nofun⟩
  · rw [List.forall_mem_cons] at frames
    exact bounded_complete (.list fun d h => frames.1 d (List.mem_reverse.1 h)) frames.2 done
  · cases done
    exact ⟨frames, nofun⟩
  · rw [List.forall_mem_cons] at frames
    exact bounded_complete (bounded_closeTable frames.1) frames.2 done
  · cases done

/-- No token brings anything out of the bounds. -/
theorem Bounded.step {s : State} {t : Token} (bounded : s.Bounded) (done : s.step float t = some s') :
    s'.Bounded := by
  unfold State.step at done
  split at done
  · exact bounded_stepValue bounded.stack done
  · split at done
    · exact bounded_stepSeparator bounded.stack done
    · exact bounded_stepValue bounded.stack done
  · exact bounded_stepName bounded.stack done
  · split at done
    · exact bounded_stepSeparator bounded.stack done
    · exact bounded_stepName bounded.stack done
  · split at done
    · cases done
      exact ⟨bounded.stack, nofun⟩
    · cases done
  · exact bounded_stepSeparator bounded.stack done
  · cases done

/-- A run of tokens keeps the bounds. -/
theorem Bounded.foldlM {s : State} {ts : List Token} (bounded : s.Bounded)
    (done : ts.foldlM (State.step float) s = some s') : s'.Bounded := by
  induction ts generalizing s with
  | nil =>
    cases done
    exact bounded
  | cons t ts ih =>
    rw [List.foldlM_cons, Option.bind_eq_bind, Option.bind_eq_some_iff] at done
    obtain ⟨next, first, rest⟩ := done
    exact ih (bounded.step first) rest

theorem bounded_start : start.Bounded := ⟨nofun, nofun⟩

end State

/-- The numbers of every value that is read are within the bounds. -/
theorem bounded_of_parse {text : String} {d : Datum} (parsed : parse float text = some d) : Bounded d := by
  rw [parse, Option.bind_eq_some_iff] at parsed
  obtain ⟨ts, _, built⟩ := parsed
  unfold build at built
  split at built
  · next done =>
    cases built
    exact (State.bounded_start.foldlM done).result _ rfl
  · cases built

end Json

end CycleCost.Document
