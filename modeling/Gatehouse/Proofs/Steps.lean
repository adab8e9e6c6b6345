import Gatehouse.Proofs.Attempt

set_option autoImplicit false

/-!
# Steps that show at the end

A change that is made in several steps, each of which may fail. What is seen of the state stays as it
was until the last step succeeds.
-/

namespace Gatehouse.Attempt

variable {ε ε' σ τ ν μ α : Type}

theorem ext {a b : Attempt ε σ α} (h : ∀ state, a.runFrom state = b.runFrom state) : a = b := by
  apply ExceptT.ext
  exact funext h

/-- A step that, where it fails, leaves what is seen as it was. -/
def FailsUnseen (Sound : σ → Prop) (view : σ → ν) (step : Attempt ε σ Unit) (state : σ) : Prop :=
  ∀ error after, step.runFrom state = (.error error, after) → Sound after ∧ view after = view state

/-- Steps of which only the last one shows: it alone turns the view into the new one. -/
inductive Installs (Sound : σ → Prop) (view : σ → ν) (new : ν) :
    List (Attempt ε σ Unit) → σ → Prop where
  | last {step : Attempt ε σ Unit} {state : σ} (failed : FailsUnseen Sound view step state)
      (done : ∀ after, step.runFrom state = (.ok (), after) → Sound after ∧ view after = new) :
      Installs Sound view new [step] state
  | more {step : Attempt ε σ Unit} {left : List (Attempt ε σ Unit)} {state : σ}
      (failed : FailsUnseen Sound view step state)
      (hidden : ∀ after, step.runFrom state = (.ok (), after) →
        Sound after ∧ view after = view state)
      (next : ∀ after, step.runFrom state = (.ok (), after) → Installs Sound view new left after) :
      Installs Sound view new (step :: left) state

theorem runFrom_forM_cons (step : Attempt ε σ Unit) (left : List (Attempt ε σ Unit)) (state : σ) :
    ((step :: left).forM id).runFrom state =
      match step.runFrom state with
      | (.ok _, after) => (left.forM id).runFrom after
      | (.error error, after) => (.error error, after) := by
  change (step >>= fun _ => left.forM id).runFrom state = _
  rw [runFrom_bind]
  rcases step.runFrom state with ⟨outcome, after⟩
  cases outcome <;> rfl

theorem runFrom_forM_cons_eq_ok {step : Attempt ε σ Unit} {left : List (Attempt ε σ Unit)}
    {state after : σ} :
    ((step :: left).forM id).runFrom state = (.ok (), after) ↔
      ∃ mid, step.runFrom state = (.ok (), mid) ∧
        (left.forM id).runFrom mid = (.ok (), after) := by
  change (step >>= fun _ => left.forM id).runFrom state = _ ↔ _
  rw [runFrom_bind_eq_ok]
  exact ⟨fun ⟨(), mid, h⟩ => ⟨mid, h⟩, fun ⟨mid, h⟩ => ⟨(), mid, h⟩⟩

theorem forM_mapError (f : ε → ε') (steps : List (Attempt ε σ Unit)) :
    (steps.map (mapError f)).forM id = (steps.forM id).mapError f := by
  apply ext
  induction steps with
  | nil => exact fun _ => rfl
  | cons step left ih =>
    intro state
    rw [List.map_cons, runFrom_forM_cons, runFrom_mapError, runFrom_mapError, runFrom_forM_cons]
    rcases step.runFrom state with ⟨outcome, after⟩
    cases outcome with
    | error error => rfl
    | ok value =>
      rw [← runFrom_mapError]
      exact ih after

theorem FailsUnseen.mapError {Sound : σ → Prop} {view : σ → ν} {step : Attempt ε σ Unit}
    {state : σ} (f : ε → ε') (h : FailsUnseen Sound view step state) :
    FailsUnseen Sound view (step.mapError f) state := by
  intro error after hrun
  rw [runFrom_mapError] at hrun
  rcases hstep : step.runFrom state with ⟨outcome, mid⟩
  rw [hstep] at hrun
  cases outcome with
  | ok value => cases hrun
  | error cause =>
    cases hrun
    exact h cause mid hstep

namespace Installs

variable {Sound : σ → Prop} {view : σ → ν} {new : ν} {steps : List (Attempt ε σ Unit)} {state : σ}

theorem ne_nil (h : Installs Sound view new steps state) : steps ≠ [] := by
  cases h <;> exact List.cons_ne_nil _ _

theorem map (g : ν → μ) (h : Installs Sound view new steps state) :
    Installs Sound (fun state => g (view state)) (g new) steps state := by
  induction h with
  | last failed done =>
    apply last
    · exact fun error after hrun => (failed error after hrun).imp_right (congrArg g)
    · exact fun after hrun => (done after hrun).imp_right (congrArg g)
  | more failed hidden next ih =>
    apply more
    · exact fun error after hrun => (failed error after hrun).imp_right (congrArg g)
    · exact fun after hrun => (hidden after hrun).imp_right (congrArg g)
    · exact ih

theorem mapError (f : ε → ε') (h : Installs Sound view new steps state) :
    Installs Sound view new (steps.map (Attempt.mapError f)) state := by
  induction h with
  | last failed done =>
    apply last (failed.mapError f)
    exact fun after hrun => done after (runFrom_mapError_eq_ok.1 hrun)
  | more failed hidden next ih =>
    apply more (failed.mapError f)
    · exact fun after hrun => hidden after (runFrom_mapError_eq_ok.1 hrun)
    · exact fun after hrun => ih after (runFrom_mapError_eq_ok.1 hrun)

theorem forM (h : Installs Sound view new steps state) {outcome : Except ε Unit} {after : σ}
    (hrun : (steps.forM id).runFrom state = (outcome, after)) :
    Sound after ∧ view after = if outcome.isOk then new else view state := by
  induction h with
  | @last step state failed done =>
    rw [runFrom_forM_cons] at hrun
    rcases hstep : step.runFrom state with ⟨result, mid⟩
    rw [hstep] at hrun
    cases result with
    | error error =>
      cases hrun
      exact failed error _ hstep
    | ok value =>
      cases hrun
      exact done _ hstep
  | @more step left state failed hidden next ih =>
    rw [runFrom_forM_cons] at hrun
    rcases hstep : step.runFrom state with ⟨result, mid⟩
    rw [hstep] at hrun
    cases result with
    | error error =>
      cases hrun
      exact failed error _ hstep
    | ok value =>
      rw [← (hidden mid hstep).2]
      exact ih mid hstep hrun

end Installs

end Gatehouse.Attempt
