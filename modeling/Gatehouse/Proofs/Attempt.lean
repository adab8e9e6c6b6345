import Gatehouse.Attempt

set_option autoImplicit false

/-!
# Attempts that succeed

What must have happened for an attempt to end in a result, and what stays true of the state in any
case.
-/

namespace Gatehouse.Attempt

variable {ε ε' σ τ α β : Type}

theorem runFrom_bind_eq_ok {attempt : Attempt ε σ α} {next : α → Attempt ε σ β} {state after : σ}
    {result : β} :
    (attempt >>= next).runFrom state = (.ok result, after) ↔
      ∃ value mid, attempt.runFrom state = (.ok value, mid) ∧
        (next value).runFrom mid = (.ok result, after) := by
  rw [runFrom_bind]
  rcases attempt.runFrom state with ⟨outcome, mid⟩
  cases outcome with
  | error error => simp
  | ok value =>
    constructor
    · intro h
      exact ⟨value, mid, rfl, h⟩
    · rintro ⟨_, _, he, h⟩
      cases he
      exact h

theorem runFrom_map {attempt : Attempt ε σ α} {state after : σ} {outcome : Except ε α} (f : α → β)
    (h : attempt.runFrom state = (outcome, after)) :
    (f <$> attempt).runFrom state = (outcome.map f, after) := by
  rw [map_eq_pure_bind, runFrom_bind, h]
  cases outcome <;> rfl

@[simp] theorem mapError_ok (f : ε → ε') (value : α) :
    (Except.ok value : Except ε α).mapError f = .ok value := rfl

@[simp] theorem mapError_error (f : ε → ε') (error : ε) :
    (Except.error error : Except ε α).mapError f = .error (f error) := rfl

theorem runFrom_mapError_eq_ok {f : ε → ε'} {attempt : Attempt ε σ α} {state after : σ}
    {result : α} :
    (attempt.mapError f).runFrom state = (.ok result, after) ↔
      attempt.runFrom state = (.ok result, after) := by
  rw [runFrom_mapError]
  rcases attempt.runFrom state with ⟨outcome, mid⟩
  cases outcome with
  | ok value =>
    constructor
    · intro h
      cases h
      rfl
    · intro h
      cases h
      rfl
  | error error =>
    constructor
    · intro h
      cases h
    · intro h
      cases h

theorem runFrom_mapError_eq_error {f : ε → ε'} {attempt : Attempt ε σ α} {state after : σ}
    {error : ε'} (h : (attempt.mapError f).runFrom state = (.error error, after)) :
    ∃ cause, attempt.runFrom state = (.error cause, after) := by
  rw [runFrom_mapError] at h
  rcases hrun : attempt.runFrom state with ⟨cause | value, mid⟩
  · rw [hrun] at h
    cases h
    exact ⟨cause, rfl⟩
  · rw [hrun] at h
    cases h

theorem runFrom_bind_eq_error {attempt : Attempt ε σ α} {next : α → Attempt ε σ β}
    {state after : σ} {error : ε} :
    (attempt >>= next).runFrom state = (.error error, after) ↔
      attempt.runFrom state = (.error error, after) ∨
        ∃ value mid, attempt.runFrom state = (.ok value, mid) ∧
          (next value).runFrom mid = (.error error, after) := by
  rw [runFrom_bind]
  rcases attempt.runFrom state with ⟨outcome, mid⟩
  cases outcome with
  | error error => simp
  | ok value =>
    constructor
    · intro h
      exact .inr ⟨value, mid, rfl, h⟩
    · rintro (h | ⟨_, _, he, h⟩)
      · cases h
      · cases he
        exact h

theorem runFrom_bind_pure_eq_error {attempt : Attempt ε σ α} {f : α → β} {state after : σ}
    {error : ε}
    (h : (attempt >>= fun value => pure (f value)).runFrom state = (.error error, after)) :
    attempt.runFrom state = (.error error, after) := by
  rcases runFrom_bind_eq_error.1 h with hrun | ⟨_, _, -, hpure⟩
  · exact hrun
  · cases hpure

/-- A property of the state stays, whatever the outcome is. -/
def Preserves (p : σ → Prop) (attempt : Attempt ε σ α) : Prop :=
  ∀ state, p state → p (attempt.runFrom state).2

namespace Preserves

variable {p : σ → Prop} {attempt : Attempt ε σ α}

theorem pure (value : α) : (Pure.pure value : Attempt ε σ α).Preserves p :=
  fun _ h => h

theorem throw (error : ε) : (MonadExcept.throw error : Attempt ε σ α).Preserves p :=
  fun _ h => h

theorem of_leaves (h : ∀ state, p state → (attempt.runFrom state).2 = state) :
    attempt.Preserves p := by
  intro state hstate
  rw [h state hstate]
  exact hstate

theorem bind {next : α → Attempt ε σ β} (h : attempt.Preserves p)
    (hnext : ∀ value, (next value).Preserves p) : (attempt >>= next).Preserves p := by
  intro state hstate
  rw [runFrom_bind]
  have hmid := h state hstate
  rcases hrun : attempt.runFrom state with ⟨outcome, mid⟩
  rw [hrun] at hmid
  cases outcome with
  | error error => exact hmid
  | ok value => exact hnext value mid hmid

theorem foldlM {f : β → α → Attempt ε σ β} (h : ∀ acc x, (f acc x).Preserves p) (xs : List α)
    (acc : β) : (xs.foldlM f acc).Preserves p := by
  induction xs generalizing acc with
  | nil => exact pure acc
  | cons x xs ih =>
    rw [List.foldlM_cons]
    exact bind (h acc x) ih

theorem mapError (f : ε → ε') (h : attempt.Preserves p) : (attempt.mapError f).Preserves p := by
  intro state hstate
  rw [runFrom_mapError]
  exact h state hstate

theorem outcome (h : attempt.Preserves p) :
    (attempt.outcome : Attempt ε' σ (Except ε α)).Preserves p := h

end Preserves

end Gatehouse.Attempt
