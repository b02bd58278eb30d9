/-
Module: CycleCost.Proofs.Calibration.Couple
Purpose: Two runs side by side, on two machines. A couple of steps goes through in both runs or fails in both
  with the same fault; what relates the values and the states is carried from step to step. Agreement is the
  couple whose values are equal; here they only have to be related.
Main exports: Act.Abreast, Act.Couple, Act.Couple.bind, Act.Couple.observe, Act.Couple.mapM
-/
import CycleCost.Proofs.Calibration.Agreement

namespace CycleCost

variable {σ τ α β γ δ ε : Type}

namespace Act

/-- How two steps come out side by side: both with values and states that `Q` relates, or both with the same
    fault and in states that `E` relates. -/
inductive Abreast (Q : β → γ → σ → τ → Prop) (E : σ → τ → Prop) :
    Result β × σ → Result γ × τ → Prop where
  | done {b : β} {c : γ} {s : σ} {t : τ} : Q b c s t → Abreast Q E (.ok b, s) (.ok c, t)
  | failed {fault : Fault} {s : σ} {t : τ} : E s t → Abreast Q E (.error fault, s) (.error fault, t)

/-- From all states that `P` relates two steps come out abreast. -/
def Couple (P : σ → τ → Prop) (x : Act σ β) (y : Act τ γ) (Q : β → γ → σ → τ → Prop)
    (E : σ → τ → Prop) : Prop :=
  ∀ s t, P s t → Abreast Q E (x.run s) (y.run t)

namespace Couple

variable {P E : σ → τ → Prop} {Q : β → γ → σ → τ → Prop} {x : Act σ β} {y : Act τ γ}

theorem pure {b : β} {c : γ} (holds : ∀ s t, P s t → Q b c s t) :
    Couple P (Pure.pure b : Act σ β) (Pure.pure c) Q E :=
  fun s t related => .done (holds s t related)

theorem throw (fault : Fault) (holds : ∀ s t, P s t → E s t) :
    Couple P (MonadExcept.throw fault : Act σ β) (MonadExcept.throw fault : Act τ γ) Q E :=
  fun s t related => .failed (holds s t related)

/-- A result beside what a function makes of it leaves the states alone. -/
theorem ofResult {F : β → γ} {r : Result β} {r' : Result γ} (same : r' = r.map F)
    (holds : ∀ b s t, P s t → Q b (F b) s t) (failed : ∀ s t, P s t → E s t) :
    Couple P (Act.ofResult r) (Act.ofResult r') Q E := by
  intro s t related
  rw [same]
  cases r with
  | ok b => exact .done (holds b s t related)
  | error fault => exact .failed (failed s t related)

/-- A couple that goes through is followed by the next one; a couple that fails ends both runs. -/
theorem bind {Q' : δ → ε → σ → τ → Prop} {f : β → Act σ δ} {g : γ → Act τ ε} (first : Couple P x y Q E)
    (later : ∀ b c, Couple (Q b c) (f b) (g c) Q' E) : Couple P (x >>= f) (y >>= g) Q' E := by
  intro s t related
  have abreast : Abreast Q E (x.run s) (y.run t) := first s t related
  change Abreast Q' E ((x >>= f).run s) ((y >>= g).run t)
  rw [run_bind, run_bind]
  generalize x.run s = p at abreast ⊢
  generalize y.run t = q at abreast ⊢
  cases abreast with
  | done holds => exact later _ _ _ _ holds
  | failed holds => exact .failed holds

/-- Observed steps both go on, with outcomes that are abreast. -/
theorem observe {E' : σ → τ → Prop} (couple : Couple P x y Q E) :
    Couple P x.observe y.observe (fun r r' s t => Abreast Q E (r, s) (r', t)) E' :=
  fun s t related => .done (couple s t related)

/-- A list of couples, each of which keeps the states related and the second value a function of the first,
    does so as a whole. -/
theorem mapM {F : β → γ} {f : δ → Act σ β} {g : δ → Act τ γ}
    (step : ∀ d, Couple P (f d) (g d) (fun b c s t => c = F b ∧ P s t) E) (list : List δ) :
    Couple P (list.mapM f) (list.mapM g) (fun bs cs s t => cs = bs.map F ∧ P s t) E := by
  induction list with
  | nil => exact .pure fun s t related => ⟨rfl, related⟩
  | cons d rest ih =>
    rw [List.mapM_cons, List.mapM_cons]
    apply (step d).bind
    intro b c s t first
    obtain ⟨rfl, related⟩ := first
    refine Couple.bind ih (fun bs cs => ?_) s t related
    intro s t later
    obtain ⟨rfl, related⟩ := later
    exact .done ⟨rfl, related⟩

end Couple

end Act

end CycleCost
