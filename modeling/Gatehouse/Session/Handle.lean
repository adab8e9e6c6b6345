import Gatehouse.Session.Basic

set_option autoImplicit false

/-!
# Session handles

The session of a request while it is served, and whether a step has changed it. A change counts even
when a later step undoes it.
-/

namespace Gatehouse

structure SessionHandle where
  session : Session
  modified : Bool := false
  deriving DecidableEq, Repr

namespace SessionHandle

def new (session : Session) : SessionHandle := { session }

def commit (session : Session) (handle : SessionHandle) : SessionHandle :=
  ⟨session, handle.modified || handle.session != session⟩

def update (f : Session → Session) (handle : SessionHandle) : SessionHandle :=
  handle.commit (f handle.session)

def takeFlashes (handle : SessionHandle) : List Flash × SessionHandle :=
  (handle.session.takeFlashes.1, handle.update fun session => session.takeFlashes.2)

/-- The session, if a step has changed it. -/
def changed? (handle : SessionHandle) : Option Session :=
  if handle.modified then some handle.session else none

@[simp] theorem session_commit (session : Session) (handle : SessionHandle) :
    (handle.commit session).session = session := rfl

@[simp] theorem session_update (f : Session → Session) (handle : SessionHandle) :
    (handle.update f).session = f handle.session := rfl

@[simp] theorem modified_commit (session : Session) (handle : SessionHandle) :
    (handle.commit session).modified = (handle.modified || handle.session != session) := rfl

@[simp] theorem commit_session (handle : SessionHandle) :
    handle.commit handle.session = handle := by
  cases handle
  simp [commit]

end SessionHandle

end Gatehouse
