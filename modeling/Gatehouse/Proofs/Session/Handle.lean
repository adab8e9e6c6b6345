import Gatehouse.Session.Handle

set_option autoImplicit false

/-!
# Steps on a handle

All that a handler can do to a session goes through its handle.
-/

namespace Gatehouse

inductive HandleStep where
  | update (f : Session → Session)
  | commit (session : Session)
  | takeFlashes

namespace HandleStep

def apply : HandleStep → SessionHandle → SessionHandle
  | update f => SessionHandle.update f
  | commit session => SessionHandle.commit session
  | takeFlashes => fun handle => handle.takeFlashes.2

end HandleStep

namespace SessionHandle

def follow (handle : SessionHandle) (steps : List HandleStep) : SessionHandle :=
  steps.foldl (fun handle step => step.apply handle) handle

theorem modified_apply (step : HandleStep) (handle : SessionHandle) :
    (step.apply handle).modified =
      (handle.modified || handle.session != (step.apply handle).session) := by
  cases step with
  | update f => rfl
  | commit session => rfl
  | takeFlashes => rfl

theorem session_follow {handle : SessionHandle} {steps : List HandleStep}
    (h : (handle.follow steps).modified = false) :
    handle.modified = false ∧ (handle.follow steps).session = handle.session := by
  induction steps generalizing handle with
  | nil => exact ⟨h, rfl⟩
  | cons step steps ih =>
    have hrest : ((step.apply handle).follow steps).modified = false := h
    obtain ⟨hstep, hsession⟩ := ih hrest
    rw [modified_apply, Bool.or_eq_false_iff] at hstep
    have hsame : handle.session = (step.apply handle).session := by
      simpa using hstep.2
    exact ⟨hstep.1, hsession.trans hsame.symm⟩

theorem changed?_eq_none_iff {handle : SessionHandle} :
    handle.changed? = none ↔ handle.modified = false := by
  cases h : handle.modified <;> simp [changed?, h]

theorem changed?_eq_some_iff {handle : SessionHandle} {session : Session} :
    handle.changed? = some session ↔ handle.modified = true ∧ handle.session = session := by
  cases h : handle.modified <;> simp [changed?, h]

end SessionHandle

end Gatehouse
