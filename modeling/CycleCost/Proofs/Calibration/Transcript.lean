/-
Module: CycleCost.Proofs.Calibration.Transcript
Purpose: What a machine was asked and what it answered, in order. Writing a transcript changes neither the
  answers nor the requests, so a fact about the transcript is a fact about the calibration itself. A step
  `Yields` what holds of its own part of the transcript together with its outcome; the facts about a whole
  calibration are put together from those about its steps.
Main exports: Exchange, Transcript, Machine.transcribed, Machine.transcribed_agree, Machine.recorded_agree,
  Act.Yields, Act.Yields.bind, Act.Yields.mapM, Act.Agree.outcome_transcribed, Act.Agree.calls_recorded
-/
import CycleCost.Proofs.Calibration.Agreement

namespace CycleCost

/-- A request to a machine together with its answer. -/
inductive Exchange where
  | build (source : String) (answer : Result String)
  | kernel (name : String) (repetitions : UInt64) (answer : Result String)
  | count (program : String) (answer : Result UInt64)
  | run (program : String) (limit : Duration) (answer : Result Run)

/-- The request of an exchange. -/
def Exchange.call : Exchange → Call
  | build source _ => .build source
  | kernel name repetitions _ => .kernel name repetitions
  | count program _ => .count program
  | run program limit _ => .run program limit

/-- The state of a machine together with what was exchanged with it, the latest first. -/
structure Transcript (σ : Type) where
  state : σ
  latest : List Exchange

variable {σ τ α β γ : Type}

namespace Transcript

/-- Before the first request. -/
def start (state : σ) : Transcript σ := ⟨state, []⟩

/-- The exchanges in the order in which they took place. -/
def exchanges (t : Transcript σ) : List Exchange := t.latest.reverse

end Transcript

/-- A step of the machine that is written down with its answer. -/
def Act.transcribed (exchange : Result β → Exchange) (step : Act σ β) : Act (Transcript σ) β :=
  ExceptT.mk fun t =>
    ((step.run t.state).1, ⟨(step.run t.state).2, exchange (step.run t.state).1 :: t.latest⟩)

/-- The same machine, writing a transcript. Giving a program back is no request. -/
def Machine.transcribed (m : Machine σ) : Machine (Transcript σ) where
  build source := Act.transcribed (.build source) (m.build source)
  buildKernel name count := Act.transcribed (.kernel name count) (m.buildKernel name count)
  count program := Act.transcribed (.count program) (m.count program)
  run program limit := Act.transcribed (.run program limit) (m.run program limit)
  release program := fun t => ((), { t with state := (m.release program t.state).2 })

/-! ### Writing down changes nothing -/

/-- A machine cannot be told from the same machine with a transcript. -/
theorem Machine.transcribed_agree (m : Machine σ) :
    m.Agree (fun s (t : Transcript σ) => t.state = s) m.transcribed := by
  constructor
  case release =>
    rintro program s t rfl
    rfl
  all_goals
    intros
    rintro s t rfl
    exact ⟨rfl, rfl⟩

/-- A transcript holds the requests that a recorder keeps. -/
theorem Machine.recorded_agree (m : Machine σ) :
    m.recorded.Agree (fun r (t : Transcript σ) =>
      t.state = r.state ∧ t.latest.map Exchange.call = r.latest) m.transcribed := by
  constructor
  case release =>
    rintro program ⟨s, latest⟩ t ⟨rfl, rfl⟩
    exact ⟨rfl, rfl⟩
  all_goals
    intros
    rintro ⟨s, latest⟩ t ⟨rfl, rfl⟩
    exact ⟨rfl, rfl, rfl⟩

/-! ### What a step exchanges -/

/-- From every state, the exchanges that a step adds to the transcript and its outcome satisfy `P`. -/
def Act.Yields (x : Act (Transcript σ) β) (P : List Exchange → Result β → Prop) : Prop :=
  ∀ t, ∃ exchanges, (x.run t).2.latest = exchanges.reverse ++ t.latest ∧ P exchanges (x.run t).1

namespace Act.Yields

variable {x : Act (Transcript σ) β} {P : List Exchange → Result β → Prop}

theorem mono {Q : List Exchange → Result β → Prop} (h : x.Yields P) (k : ∀ ex r, P ex r → Q ex r) :
    x.Yields Q :=
  fun t => (h t).imp fun ex found => ⟨found.1, k ex _ found.2⟩

/-- Steps without a request exchange nothing. -/
theorem pure {b : β} {P : List Exchange → Result β → Prop} (h : P [] (.ok b)) :
    (Pure.pure b : Act (Transcript σ) β).Yields P := fun _ => ⟨[], rfl, h⟩

theorem throw {fault : Fault} {P : List Exchange → Result β → Prop} (h : P [] (.error fault)) :
    (MonadExcept.throw fault : Act (Transcript σ) β).Yields P := fun _ => ⟨[], rfl, h⟩

theorem ofResult {r : Result β} {P : List Exchange → Result β → Prop} (h : P [] r) :
    (Act.ofResult r : Act (Transcript σ) β).Yields P := fun _ => ⟨[], rfl, h⟩

/-- An observed step never fails. -/
theorem observe (h : x.Yields P) : x.observe.Yields fun ex r => ∃ answer, r = .ok answer ∧ P ex answer :=
  fun t => (h t).imp fun _ found => ⟨found.1, _, rfl, found.2⟩

/-- The exchanges of two steps stand one behind the other, unless the first one fails. -/
theorem bind {f : β → Act (Transcript σ) γ} {Q : List Exchange → Result γ → Prop} (h : x.Yields P)
    (later : ∀ b first, P first (.ok b) → (f b).Yields fun rest r => Q (first ++ rest) r)
    (failed : ∀ fault first, P first (.error fault) → Q first (.error fault)) : (x >>= f).Yields Q := by
  intro t
  obtain ⟨first, latest, holds⟩ := h t
  rw [Act.run_bind]
  rcases hx : x.run t with ⟨r, t'⟩
  rw [hx] at latest holds
  cases r with
  | error fault => exact ⟨first, latest, failed fault first holds⟩
  | ok b =>
    obtain ⟨rest, after, found⟩ := later b first holds t'
    refine ⟨first ++ rest, ?_, found⟩
    rw [after, latest, List.reverse_append, List.append_assoc]

/-- A request is one exchange, which holds its answer. -/
theorem transcribed (exchange : Result β → Exchange) (step : Act σ β) :
    (Act.transcribed exchange step).Yields fun ex r => ex = [exchange r] :=
  fun _ => ⟨[_], rfl, rfl⟩

/-- A release is no exchange. -/
theorem release (m : Machine σ) (program : String) {P : List Exchange → Result Unit → Prop}
    (h : P [] (.ok ())) : (monadLift (m.transcribed.release program) : Act (Transcript σ) Unit).Yields P :=
  fun _ => ⟨[], rfl, h⟩

/-- Steps that each exchange what belongs to one thing they make, and never fail, exchange together what
    belongs to all of these things in order. -/
theorem mapM {δ ν : Type} {f : δ → Act (Transcript σ) β} {Made : ν → Prop} {origin : ν → δ}
    {exchanges : ν → List Exchange} {value : ν → β}
    (each : ∀ d, (f d).Yields fun ex r => ∃ v, origin v = d ∧ Made v ∧ ex = exchanges v ∧ r = .ok (value v))
    (list : List δ) :
    (list.mapM f).Yields fun ex r => ∃ made : List ν, made.map origin = list ∧
      (∀ v ∈ made, Made v) ∧ ex = made.flatMap exchanges ∧ r = .ok (made.map value) := by
  induction list with
  | nil => exact .pure ⟨[], rfl, nofun, rfl, rfl⟩
  | cons d rest ih =>
    rw [List.mapM_cons]
    apply (each d).bind
    case failed =>
      rintro fault first ⟨v, -, -, -, same⟩
      cases same
    rintro b first ⟨v, rfl, well, rfl, same⟩
    cases same
    apply ih.bind
    case failed =>
      rintro fault later ⟨made, -, -, -, same⟩
      cases same
    rintro bs later ⟨made, rfl, all, rfl, same⟩
    cases same
    refine .pure ⟨v :: made, rfl, List.forall_mem_cons.2 ⟨well, all⟩, ?_, rfl⟩
    rw [List.append_nil, List.flatMap_cons]

/-- From the start, the exchanges are the whole transcript. -/
theorem exchanges_start (h : x.Yields P) (s : σ) :
    P (x.run (.start s)).2.exchanges (x.run (.start s)).1 := by
  obtain ⟨exchanges, latest, holds⟩ := h (.start s)
  have all : (x.run (.start s)).2.exchanges = exchanges := by
    rw [Transcript.exchanges, latest]
    simp [Transcript.start]
  exact all.symm ▸ holds

end Act.Yields

/-! ### A calibration and its transcript -/

/-- A step has the outcome that its transcript shows. -/
theorem Act.Agree.outcome_transcribed {x : Act σ β} {y : Act (Transcript σ) β}
    (h : Act.Agree (fun s t => t.state = s) x y) (state : σ) :
    (x.run state).1 = (y.run (.start state)).1 :=
  (h state (.start state) rfl).1

/-- The requests that a recorder keeps of a step are those of the transcript. -/
theorem Act.Agree.calls_recorded {x : Act (Recorded σ) β} {y : Act (Transcript σ) β}
    (h : Act.Agree (fun r t => t.state = r.state ∧ t.latest.map Exchange.call = r.latest) x y)
    (state : σ) :
    (x.run ⟨state, []⟩).2.calls = (y.run (.start state)).2.exchanges.map Exchange.call := by
  have after := (h ⟨state, []⟩ (.start state) ⟨rfl, rfl⟩).2.2
  rw [Recorded.calls, Transcript.exchanges, List.map_reverse, after]

variable [Scalar α]

/-- The outcome of a calibration is the one that the transcript shows. -/
theorem Template.calibrate_transcribed (m : Machine σ) (s : Settings α) (t : Template) (state : σ) :
    ((t.calibrate m s).run state).1 = ((t.calibrate m.transcribed s).run (.start state)).1 :=
  (t.calibrate_agree m.transcribed_agree s).outcome_transcribed state

/-- The requests that a recorder keeps are those of the transcript. -/
theorem Template.calls_calibrate (m : Machine σ) (s : Settings α) (t : Template) (state : σ) :
    ((t.calibrate m.recorded s).run ⟨state, []⟩).2.calls =
      ((t.calibrate m.transcribed s).run (.start state)).2.exchanges.map Exchange.call :=
  (t.calibrate_agree m.recorded_agree s).calls_recorded state

end CycleCost
