/-
Module: CycleCost.Proofs.Calibration.Agreement
Purpose: Machines that cannot be told apart. Two steps agree when from related states they give the same
  outcome and leave related states; agreement is kept by everything that a calibration is composed of, so a
  calibration has the same outcome on machines whose actions agree. A recorder of requests agrees with the
  machine it records, and a machine without a memory agrees with itself in any other state.
Main exports: Act.run_bind, Act.Agree, Machine.Agree, measure_agree, Template.calibrate_agree,
  KernelSpec.calibrate_agree, FixedWorkload.estimate_agree, Machine.Memoryless, Machine.Memoryless.agree
-/
import CycleCost.Calibration.Benchmark

namespace CycleCost

variable {σ τ α β γ : Type}

namespace Act

/-! ### Steps, one behind the other -/

/-- A failed step ends what follows it. -/
theorem run_bind (x : Act σ β) (f : β → Act σ γ) (s : σ) :
    (x >>= f).run s =
      match x.run s with
      | (.ok b, s') => (f b).run s'
      | (.error fault, s') => (.error fault, s') := by
  change ((x.run s >>= fun p => ExceptT.bindCont f p.1 p.2 : Id _)) = _
  rcases x.run s with ⟨r, s'⟩
  cases r <;> rfl

/-- The outcome of a step and what follows it, which starts from the state that the step leaves. -/
theorem outcome_bind (x : Act σ β) (f : β → Act σ γ) (s : σ) :
    ((x >>= f).run s).1 = (x.run s).1 >>= fun b => ((f b).run (x.run s).2).1 := by
  rw [run_bind]
  rcases x.run s with ⟨r, s'⟩
  cases r <;> rfl

/-- An observed step always goes on, with its outcome as a value. -/
theorem run_observe_bind (x : Act σ β) (f : Result β → Act σ γ) (s : σ) :
    (x.observe >>= f).run s = (f (x.run s).1).run (x.run s).2 := rfl

/-- A pure success goes on with its value. -/
theorem ofResult_ok_bind (b : β) (f : β → Act σ γ) : (ofResult (.ok b) >>= f) = f b := rfl

/-- What is computed at the end of a run has been computed from what was tried. -/
theorem exists_of_run_bind_ofResult {tried : Act σ β} {finish : β → Result γ} {state : σ} {c : γ}
    (done : ((tried >>= fun b => ofResult (finish b)).run state).1 = .ok c) : ∃ b, finish b = .ok c := by
  rw [outcome_bind] at done
  cases found : (tried.run state).1 with
  | error fault =>
    rw [found] at done
    cases done
  | ok b =>
    rw [found] at done
    exact ⟨b, done⟩

/-! ### Steps that agree -/

/-- From related states two steps give the same outcome, and they leave related states. -/
def Agree (R : σ → τ → Prop) (x : Act σ β) (y : Act τ β) : Prop :=
  ∀ s t, R s t → (x.run s).1 = (y.run t).1 ∧ R (x.run s).2 (y.run t).2

namespace Agree

variable {R : σ → τ → Prop}

theorem pure (b : β) : Agree R (Pure.pure b : Act σ β) (Pure.pure b) := fun _ _ h => ⟨rfl, h⟩

theorem throw (fault : Fault) :
    Agree R (MonadExcept.throw fault : Act σ β) (MonadExcept.throw fault) := fun _ _ h => ⟨rfl, h⟩

theorem ofResult (r : Result β) : Agree R (Act.ofResult r) (Act.ofResult r) := fun _ _ h => ⟨rfl, h⟩

theorem observe {x : Act σ β} {y : Act τ β} (h : Agree R x y) : Agree R x.observe y.observe :=
  fun s t related => ⟨congrArg Except.ok (h s t related).1, (h s t related).2⟩

/-- Actions that agree, followed by actions that agree, agree. -/
theorem bind {x : Act σ β} {y : Act τ β} {f : β → Act σ γ} {g : β → Act τ γ} (h : Agree R x y)
    (k : ∀ b, Agree R (f b) (g b)) : Agree R (x >>= f) (y >>= g) := by
  intro s t related
  obtain ⟨same, after⟩ := h s t related
  rw [run_bind, run_bind]
  rcases hx : x.run s with ⟨r, s'⟩
  rcases hy : y.run t with ⟨r', t'⟩
  rw [hx, hy] at same after
  obtain rfl : r = r' := same
  cases r with
  | ok b => exact k b s' t' after
  | error fault => exact ⟨rfl, after⟩

theorem mapM {δ : Type} {f : δ → Act σ β} {g : δ → Act τ β} (h : ∀ d, Agree R (f d) (g d))
    (list : List δ) : Agree R (list.mapM f) (list.mapM g) := by
  induction list with
  | nil => exact .pure []
  | cons d rest ih =>
    rw [List.mapM_cons, List.mapM_cons]
    exact (h d).bind fun b => ih.bind fun bs => .pure (b :: bs)

end Agree

end Act

/-- Machines that cannot be told apart from related states. -/
structure Machine.Agree (R : σ → τ → Prop) (m : Machine σ) (n : Machine τ) : Prop where
  build source : Act.Agree R (m.build source) (n.build source)
  buildKernel name count : Act.Agree R (m.buildKernel name count) (n.buildKernel name count)
  count program : Act.Agree R (m.count program) (n.count program)
  run program limit : Act.Agree R (m.run program limit) (n.run program limit)
  release program s t : R s t → R (m.release program s).2 (n.release program t).2

variable {R : σ → τ → Prop}

/-! ### A calibration on machines that agree -/

theorem warmUp_agree {run : Act σ Run} {run' : Act τ Run} (h : Act.Agree R run run') (n : Nat) :
    Act.Agree R (warmUp run n) (warmUp run' n) := by
  induction n with
  | zero => exact .pure ()
  | succ n ih => exact h.bind fun _ => ih

variable [Scalar α]

theorem timings_agree {run : Act σ Run} {run' : Act τ Run} (h : Act.Agree R run run')
    (expected : Option Int) (n : Nat) (earlier : List α) :
    Act.Agree R (timings run expected n earlier) (timings run' expected n earlier) := by
  induction n generalizing earlier with
  | zero => exact .pure earlier
  | succ n ih => exact h.bind fun r => (Act.Agree.ofResult _).bind fun _ => ih _

/-- Machines that agree on a run agree on its measurement. -/
theorem measure_agree {run : Act σ Run} {run' : Act τ Run} (h : Act.Agree R run run')
    (expected : Option Int) (work : UInt64) (harness : Harness α) :
    Act.Agree R (measure run expected work harness) (measure run' expected work harness) := by
  have rest : Act.Agree R
      (do warmUp run harness.warmups
          let readings ← timings run expected harness.runs []
          let s ← Act.ofResult (Sample.summarize readings.reverse harness.trimFraction)
          return (⟨work, s.mean, s.deviation, s.used⟩ : Observation α))
      (do warmUp run' harness.warmups
          let readings ← timings run' expected harness.runs []
          let s ← Act.ofResult (Sample.summarize readings.reverse harness.trimFraction)
          return (⟨work, s.mean, s.deviation, s.used⟩ : Observation α)) :=
    (warmUp_agree h _).bind fun _ => (timings_agree h expected _ _).bind fun _ =>
      (Act.Agree.ofResult _).bind fun _ => .pure _
  rw [measure, measure]
  split
  · exact (Act.Agree.throw _).bind fun _ => rest
  · exact rest

namespace Template

variable {m : Machine σ} {n : Machine τ}

theorem timeBuilt_agree (h : m.Agree R n) (s : Settings α) (count : UInt64) (digest program : String)
    (work : UInt64) :
    Act.Agree R (timeBuilt m s count digest program work) (timeBuilt n s count digest program work) := by
  refine (measure_agree (h.run program _) _ work _).observe.bind fun timing => ?_
  refine Act.Agree.bind (fun s t related => ⟨rfl, h.release program s t related⟩) fun _ => ?_
  cases timing <;> exact .pure _

/-- Machines that agree treat a size of a template alike. -/
theorem trySize_agree (h : m.Agree R n) (s : Settings α) (t : Template) (count : UInt64) :
    Act.Agree R (t.trySize m s count) (t.trySize n s count) := by
  rw [trySize, trySize]
  cases Program.bind t count s.abi with
  | error fault => exact .pure _
  | ok p =>
    refine (Act.Agree.ofResult _).bind fun work => (Act.Agree.ofResult _).bind fun source =>
      (h.build source).observe.bind fun built => ?_
    cases built with
    | ok program => exact timeBuilt_agree h s count _ program work
    | error fault =>
      dsimp only
      split
      · exact .pure _
      · exact .throw _

/-- A template costs the same on machines that cannot be told apart. -/
theorem calibrate_agree (h : m.Agree R n) (s : Settings α) (t : Template) :
    Act.Agree R (t.calibrate m s) (t.calibrate n s) :=
  (Act.Agree.mapM (trySize_agree h s t) _).bind fun _ => .ofResult _

end Template

namespace KernelSpec

variable {m : Machine σ} {n : Machine τ}

theorem timeSize_agree (h : m.Agree R n) (s : Settings α) (k : KernelSpec) (count : UInt64) :
    Act.Agree R (k.timeSize m s count) (k.timeSize n s count) := by
  apply (h.buildKernel k.name count).bind
  intro program
  apply (h.count program).bind
  intro instructions
  exact measure_agree (h.run program s.harness.timeout) _ instructions s.harness

/-- Machines that agree treat a size of a kernel alike. -/
theorem trySize_agree (h : m.Agree R n) (s : Settings α) (k : KernelSpec) (count : UInt64) :
    Act.Agree R (k.trySize m s count) (k.trySize n s count) := by
  apply (timeSize_agree h s k count).observe.bind
  intro timing
  cases timing with
  | ok o => exact .pure _
  | error fault => exact .pure _

/-- A kernel costs the same on machines that cannot be told apart. -/
theorem calibrate_agree (h : m.Agree R n) (s : Settings α) (k : KernelSpec) :
    Act.Agree R (k.calibrate m s) (k.calibrate n s) :=
  (Act.Agree.mapM (trySize_agree h s k) _).bind fun _ => .ofResult _

end KernelSpec

/-- A supplied cost is compared with the same timing on machines that cannot be told apart. -/
theorem FixedWorkload.estimate_agree {m : Machine σ} {n : Machine τ} (h : m.Agree R n) (s : Settings α)
    (w : FixedWorkload α) : Act.Agree R (w.estimate m s) (w.estimate n s) :=
  (measure_agree (h.run w.executable _) _ _ _).observe.bind fun _ => .ofResult _

/-! ### Machines without a memory -/

namespace Machine

/-- A machine whose answers depend on the request alone. -/
structure Memoryless (m : Machine σ) : Prop where
  build source a b : ((m.build source).run a).1 = ((m.build source).run b).1
  buildKernel name count a b : ((m.buildKernel name count).run a).1 = ((m.buildKernel name count).run b).1
  count program a b : ((m.count program).run a).1 = ((m.count program).run b).1
  run program limit a b : ((m.run program limit).run a).1 = ((m.run program limit).run b).1

/-- Without a memory, no two states of a machine can be told apart. -/
theorem Memoryless.agree {m : Machine σ} (memoryless : m.Memoryless) : m.Agree (fun _ _ => True) m := by
  constructor
  case build =>
    intro source a b _
    exact ⟨memoryless.build source a b, trivial⟩
  case buildKernel =>
    intro name count a b _
    exact ⟨memoryless.buildKernel name count a b, trivial⟩
  case count =>
    intro program a b _
    exact ⟨memoryless.count program a b, trivial⟩
  case run =>
    intro program limit a b _
    exact ⟨memoryless.run program limit a b, trivial⟩
  case release =>
    intro program a b _
    trivial

end Machine

end CycleCost
