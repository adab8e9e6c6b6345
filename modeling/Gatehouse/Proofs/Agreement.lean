import Gatehouse.Proofs.Attempt

set_option autoImplicit false

/-!
# Attempts that agree

Two attempts, each on a state of its own, are run side by side. They agree as long as each gives the
same value, or fails with an error of which the same is told. Of most errors nothing is told: where
the first attempt fails with such an error, either the second one does too, with any other such
error, or it is left to itself.
-/

namespace Gatehouse

/-- What is known of the second attempt once the first has failed and nothing is told of it. -/
inductive Partner where
  | failsToo
  | anything
  deriving DecidableEq

namespace Attempt

variable {ε ε' σ σ' τ τ' ω ω' α β : Type}

/-- Results that agree. The states are related as long as the second attempt keeps up. -/
inductive Result.Agree (partner : Partner) (told : ε → Option ω) (related : σ → τ → Prop) :
    Except ε α × σ → Except ε α × τ → Prop
  | ok (value : α) {state : σ} {other : τ} (hstates : related state other) :
      Agree partner told related (.ok value, state) (.ok value, other)
  | error {error error' : ε} {state : σ} {other : τ} (herror : told error = told error')
      (hstates : related state other) :
      Agree partner told related (.error error, state) (.error error', other)
  | alone {error : ε} {state : σ} {result : Except ε α × τ} (hpartner : partner = .anything)
      (herror : told error = none) :
      Agree partner told related (.error error, state) result

def untold {ε : Type} (_ : ε) : Option Empty := none

def Agree (partner : Partner) (told : ε → Option ω) (related : σ → τ → Prop)
    (attempt : Attempt ε σ α) (other : Attempt ε τ α) : Prop :=
  ∀ state state', related state state' →
    Result.Agree partner told related (attempt.runFrom state) (other.runFrom state')

variable {partner : Partner} {told : ε → Option ω} {told' : ε' → Option ω'}
  {related : σ → τ → Prop} {related' : σ' → τ' → Prop} {attempt : Attempt ε σ α}
  {other : Attempt ε τ α}

namespace Agree

theorem refl (attempt : Attempt ε σ α) : Agree partner told Eq attempt attempt := by
  rintro state _ rfl
  rcases attempt.runFrom state with ⟨error | value, after⟩
  · exact .error rfl rfl
  · exact .ok value rfl

theorem pure (value : α) :
    Agree partner told related (Pure.pure value : Attempt ε σ α) (Pure.pure value) :=
  fun _ _ hstates => .ok value hstates

theorem throw {error error' : ε} (herror : told error = told error') :
    Agree partner told related (MonadExcept.throw error : Attempt ε σ α)
      (MonadExcept.throw error') := by
  intro state state' hstates
  exact .error herror hstates

theorem bind {next : α → Attempt ε σ β} {next' : α → Attempt ε τ β}
    (h : Agree partner told related attempt other)
    (hnext : ∀ value, Agree partner told related (next value) (next' value)) :
    Agree partner told related (attempt >>= next) (other >>= next') := by
  intro state state' hstates
  have hfirst := h state state' hstates
  rw [runFrom_bind, runFrom_bind]
  generalize attempt.runFrom state = result at hfirst ⊢
  generalize other.runFrom state' = result' at hfirst ⊢
  cases hfirst with
  | ok value hmid => exact hnext value _ _ hmid
  | error herror hmid => exact .error herror hmid
  | alone hpartner herror => exact .alone hpartner herror

theorem mapError {f : ε → ε'} (h : Agree partner told related attempt other)
    (hsame : ∀ error error', told error = told error' → told' (f error) = told' (f error'))
    (huntold : ∀ error, told error = none → told' (f error) = none) :
    Agree partner told' related (attempt.mapError f) (other.mapError f) := by
  intro state state' hstates
  have hfirst := h state state' hstates
  rw [runFrom_mapError, runFrom_mapError]
  generalize attempt.runFrom state = result at hfirst ⊢
  generalize other.runFrom state' = result' at hfirst ⊢
  cases hfirst with
  | ok value hmid => exact .ok value hmid
  | error herror hmid => exact .error (hsame _ _ herror) hmid
  | alone hpartner herror => exact .alone hpartner (huntold _ herror)

theorem outcome_bind {next : Except ε α → Attempt ε' σ β} {next' : Except ε α → Attempt ε' τ β}
    (h : Agree partner told related attempt other)
    (hok : ∀ value, Agree partner told' related (next (.ok value)) (next' (.ok value)))
    (htold : ∀ error error' news, told error = some news → told error' = some news →
      Agree partner told' related (next (.error error)) (next' (.error error')))
    (hfails : ∀ error, told error = none →
      ∃ error', next (.error error) = MonadExcept.throw error' ∧ told' error' = none)
    (hfails' : ∀ error, told error = none →
      ∃ error', next' (.error error) = MonadExcept.throw error' ∧ told' error' = none) :
    Agree partner told' related (attempt.outcome >>= next) (other.outcome >>= next') := by
  intro state state' hstates
  have hfirst := h state state' hstates
  rw [runFrom_bind, runFrom_bind, runFrom_outcome, runFrom_outcome]
  generalize attempt.runFrom state = result at hfirst ⊢
  generalize other.runFrom state' = result' at hfirst ⊢
  cases hfirst with
  | ok value hmid => exact hok value _ _ hmid
  | @error error error' _ _ herror hmid =>
    cases hnews : told error with
    | some news => exact htold _ _ news hnews (herror ▸ hnews) _ _ hmid
    | none =>
      obtain ⟨last, hthrow, hlast⟩ := hfails _ hnews
      obtain ⟨last', hthrow', hlast'⟩ := hfails' _ (herror ▸ hnews)
      dsimp only
      rw [hthrow, hthrow']
      exact .error (hlast.trans hlast'.symm) hmid
  | alone hpartner herror =>
    obtain ⟨last, hthrow, hlast⟩ := hfails _ herror
    dsimp only
    rw [hthrow]
    exact .alone hpartner hlast

theorem onPart {part : σ' → σ} {part' : τ' → τ} {withPart : σ → σ' → σ'}
    {withPart' : τ → τ' → τ'} (h : Agree partner told related attempt other)
    (hparts : ∀ {whole whole'}, related' whole whole' → related (part whole) (part' whole'))
    (hwith : ∀ {whole whole' state state'}, related' whole whole' → related state state' →
      related' (withPart state whole) (withPart' state' whole')) :
    Agree partner told related' (attempt.onPart part withPart)
      (other.onPart part' withPart') := by
  intro whole whole' hwholes
  have hfirst := h _ _ (hparts hwholes)
  rw [runFrom_onPart, runFrom_onPart]
  generalize attempt.runFrom (part whole) = result at hfirst ⊢
  generalize other.runFrom (part' whole') = result' at hfirst ⊢
  cases hfirst with
  | ok value hmid => exact .ok value (hwith hwholes hmid)
  | error herror hmid => exact .error herror (hwith hwholes hmid)
  | alone hpartner herror => exact .alone hpartner herror

end Agree

end Attempt

structure Watched (σ : Type) where
  state : σ
  failed : Bool := false

namespace Attempt

variable {ε σ ω α : Type} {told : ε → Option ω}

def failsUntold (told : ε → Option ω) : Except ε α → Bool
  | .ok _ => false
  | .error error => (told error).isNone

/-- Does the same, and notes it where nothing is told of a failure. -/
def watched (told : ε → Option ω) (attempt : Attempt ε σ α) : Attempt ε (Watched σ) α :=
  ofFunction fun watched =>
    let result := attempt.runFrom watched.state
    (result.1, ⟨result.2, watched.failed || failsUntold told result.1⟩)

theorem agree_watched (attempt : Attempt ε σ α) :
    Agree .failsToo told (fun state watched => watched.state = state) attempt
      (attempt.watched told) := by
  rintro state watched rfl
  rw [Attempt.watched, runFrom_ofFunction]
  rcases attempt.runFrom watched.state with ⟨error | value, after⟩
  · exact .error rfl rfl
  · exact .ok value rfl

theorem agree_unnoted (attempt : Attempt ε σ α) :
    Agree .anything told (fun state watched => watched = ⟨state, false⟩) attempt
      (attempt.watched told) := by
  rintro state _ rfl
  rw [Attempt.watched, runFrom_ofFunction]
  rcases attempt.runFrom state with ⟨error | value, after⟩
  · cases hnews : told error with
    | none => exact .alone rfl hnews
    | some news => exact .error rfl (by simp [failsUntold, hnews])
  · exact .ok value rfl

end Attempt

end Gatehouse
