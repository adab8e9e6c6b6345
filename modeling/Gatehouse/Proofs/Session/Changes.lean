import Gatehouse.Proofs.Session.Handle

set_option autoImplicit false

/-!
# Changes that a handle reports

A handle reports a change if and only if some step has changed the session, whether or not a later
step has undone it. All clones of a handle share what it holds, so their steps form one sequence.
-/

namespace Gatehouse

namespace HandleStep

def onSession : HandleStep → Session → Session
  | update f => f
  | commit session => fun _ => session
  | takeFlashes => fun session => { session with flashes := [] }

theorem session_apply (step : HandleStep) (handle : SessionHandle) :
    (step.apply handle).session = step.onSession handle.session := by
  cases step with
  | update f => rfl
  | commit session => rfl
  | takeFlashes => rfl

end HandleStep

namespace Session

def afterSteps (session : Session) (steps : List HandleStep) : Session :=
  steps.foldl (fun session step => step.onSession session) session

/-- Some step makes another session of the one that the steps before it have left. -/
def Changes (session : Session) (steps : List HandleStep) : Prop :=
  ∃ before step after, steps = before ++ step :: after ∧
    step.onSession (session.afterSteps before) ≠ session.afterSteps before

theorem not_changes_nil (session : Session) : ¬ session.Changes [] := by
  rintro ⟨before, step, after, hsteps, -⟩
  simp at hsteps

theorem changes_cons {session : Session} {first : HandleStep} {steps : List HandleStep} :
    session.Changes (first :: steps) ↔
      first.onSession session ≠ session ∨ (first.onSession session).Changes steps := by
  constructor
  · rintro ⟨before, step, after, hsteps, change⟩
    cases before with
    | nil =>
      cases hsteps
      exact .inl change
    | cons head before =>
      cases hsteps
      exact .inr ⟨before, step, after, rfl, change⟩
  · rintro (change | ⟨before, step, after, rfl, change⟩)
    · exact ⟨[], first, steps, rfl, change⟩
    · exact ⟨first :: before, step, after, rfl, change⟩

theorem afterSteps_of_not_changes {session : Session} {steps : List HandleStep}
    (h : ¬ session.Changes steps) : session.afterSteps steps = session := by
  induction steps generalizing session with
  | nil => rfl
  | cons step steps ih =>
    rw [changes_cons, not_or, Decidable.not_not] at h
    obtain ⟨hstep, hsteps⟩ := h
    rw [hstep] at hsteps
    have hrest : (step.onSession session).afterSteps steps = session := by
      rw [hstep]
      exact ih hsteps
    exact hrest

end Session

namespace SessionHandle

open Session

theorem session_follow_eq (handle : SessionHandle) (steps : List HandleStep) :
    (handle.follow steps).session = handle.session.afterSteps steps := by
  induction steps generalizing handle with
  | nil => rfl
  | cons step steps ih =>
    have hrest := ih (step.apply handle)
    rw [step.session_apply] at hrest
    exact hrest

theorem modified_follow_iff (handle : SessionHandle) (steps : List HandleStep) :
    (handle.follow steps).modified = true ↔
      handle.modified = true ∨ handle.session.Changes steps := by
  induction steps generalizing handle with
  | nil => simp [follow, not_changes_nil]
  | cons step steps ih =>
    have hrest : (handle.follow (step :: steps)).modified =
        ((step.apply handle).follow steps).modified := rfl
    rw [hrest, ih, modified_apply, step.session_apply, changes_cons, Bool.or_eq_true, or_assoc,
      bne_iff_ne, ne_comm]

/-- Whatever steps are taken on a fresh handle: nothing is reported if and only if no step has
changed the session, which is then the one that the handle began with; otherwise the session as it
is now is reported. In particular a session that is not the first one is reported. -/
theorem changes_reported (session : Session) (steps : List HandleStep) :
    let handle := (SessionHandle.new session).follow steps
    handle.session = session.afterSteps steps ∧
    (handle.changed? = none ↔ ¬ session.Changes steps) ∧
    (∀ reported, handle.changed? = some reported ↔
      session.Changes steps ∧ reported = handle.session) ∧
    (session.Changes steps ∨ handle.session = session) ∧
    (handle.session = session ∨ handle.changed? = some handle.session) := by
  intro handle
  have hsession : handle.session = session.afterSteps steps :=
    (SessionHandle.new session).session_follow_eq steps
  have hmodified : handle.modified = true ↔ session.Changes steps := by
    rw [modified_follow_iff (.new session) steps]
    simp [SessionHandle.new]
  have hunchanged : session.Changes steps ∨ handle.session = session :=
    (Classical.em _).imp_right fun h => hsession.trans (afterSteps_of_not_changes h)
  refine ⟨hsession, ?_, fun reported => ?_, hunchanged, ?_⟩
  · rw [changed?_eq_none_iff, ← hmodified, Bool.not_eq_true]
  · rw [changed?_eq_some_iff, hmodified, eq_comm]
  · refine hunchanged.symm.imp_right fun h => ?_
    exact changed?_eq_some_iff.2 ⟨hmodified.2 h, rfl⟩

/-- A change counts also when it has been undone. -/
example :
    let steps := [.update (Session.pushFlash ⟨.info, "hello"⟩), .takeFlashes]
    ((SessionHandle.new .new).follow steps).changed? = some .new := by
  decide

end SessionHandle

end Gatehouse
