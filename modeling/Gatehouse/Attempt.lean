set_option autoImplicit false

/-!
# Attempts

A step that may fail and that changes a state. What it has changed by the time it fails stays
changed, as with files and servers.
-/

namespace Gatehouse

abbrev Attempt (ε σ α : Type) := ExceptT ε (StateM σ) α

namespace Attempt

variable {ε ε' σ τ α : Type}

/-- The outcome of a step, and the state it leaves. -/
def runFrom (attempt : Attempt ε σ α) (state : σ) : Except ε α × σ :=
  attempt.run.run state

def ofFunction (step : σ → Except ε α × σ) : Attempt ε σ α :=
  ExceptT.mk fun state => step state

def mapError (f : ε → ε') (attempt : Attempt ε σ α) : Attempt ε' σ α :=
  ofFunction fun state =>
    match attempt.runFrom state with
    | (.ok value, after) => (.ok value, after)
    | (.error error, after) => (.error (f error), after)

def onPart (part : τ → σ) (withPart : σ → τ → τ) (attempt : Attempt ε σ α) : Attempt ε τ α :=
  ofFunction fun state =>
    ((attempt.runFrom (part state)).1, withPart (attempt.runFrom (part state)).2 state)

/-- The outcome of a step as a value, so that what follows can look at it. -/
def outcome (attempt : Attempt ε σ α) : Attempt ε' σ (Except ε α) :=
  ofFunction fun state => (.ok (attempt.runFrom state).1, (attempt.runFrom state).2)

@[simp] theorem runFrom_ofFunction (step : σ → Except ε α × σ) (state : σ) :
    (ofFunction step).runFrom state = step state := rfl

@[simp] theorem runFrom_pure (value : α) (state : σ) :
    (pure value : Attempt ε σ α).runFrom state = (.ok value, state) := rfl

@[simp] theorem runFrom_throw (error : ε) (state : σ) :
    (throw error : Attempt ε σ α).runFrom state = (.error error, state) := rfl

@[simp] theorem runFrom_get (state : σ) :
    (get : Attempt ε σ σ).runFrom state = (.ok state, state) := rfl

@[simp] theorem runFrom_set (after state : σ) :
    (set after : Attempt ε σ PUnit).runFrom state = (.ok ⟨⟩, after) := rfl

@[simp] theorem runFrom_modify (f : σ → σ) (state : σ) :
    (modify f : Attempt ε σ PUnit).runFrom state = (.ok ⟨⟩, f state) := rfl

@[simp] theorem runFrom_mapError (f : ε → ε') (attempt : Attempt ε σ α) (state : σ) :
    (attempt.mapError f).runFrom state =
      ((attempt.runFrom state).1.mapError f, (attempt.runFrom state).2) := by
  rw [mapError, runFrom_ofFunction]
  rcases attempt.runFrom state with ⟨result, after⟩
  cases result <;> rfl

@[simp] theorem runFrom_onPart (part : τ → σ) (withPart : σ → τ → τ) (attempt : Attempt ε σ α)
    (state : τ) :
    (attempt.onPart part withPart).runFrom state =
      ((attempt.runFrom (part state)).1, withPart (attempt.runFrom (part state)).2 state) := rfl

@[simp] theorem runFrom_outcome (attempt : Attempt ε σ α) (state : σ) :
    (attempt.outcome : Attempt ε' σ (Except ε α)).runFrom state =
      (.ok (attempt.runFrom state).1, (attempt.runFrom state).2) := rfl

theorem runFrom_bind {β : Type} (attempt : Attempt ε σ α) (next : α → Attempt ε σ β)
    (state : σ) :
    (attempt >>= next).runFrom state =
      match attempt.runFrom state with
      | (.ok value, after) => (next value).runFrom after
      | (.error error, after) => (.error error, after) := by
  simp only [runFrom, ExceptT.run_bind, StateT.run_bind]
  rcases h : attempt.run.run state with ⟨result, after⟩
  cases result
  · simp [bind]
    rfl
  · simp [bind]

end Attempt

end Gatehouse
