import Gatehouse.Page

set_option autoImplicit false

/-!
# The session gate

The one place where a protected operation is let through or turned away.
-/

namespace Gatehouse

/-- Proof that a gate let a session through: the user it belongs to. -/
structure Principal where
  userId : UserId
  deriving DecidableEq, Repr

structure SessionGate where
  loginRoute : Route := .login
  deriving DecidableEq, Repr

namespace SessionGate

def check (gate : SessionGate) (session : Session) : Except Route Principal :=
  match session.userId with
  | some id => if session.isAuthenticated then .ok ⟨id⟩ else .error gate.loginRoute
  | none => .error gate.loginRoute

def guard {m : Type → Type} {α : Type} [Monad m] (gate : SessionGate) (session : Session)
    (operation : Principal → m α) : m (Except Route α) :=
  match gate.check session with
  | .ok principal => Except.ok <$> operation principal
  | .error route => pure (.error route)

theorem check_eq_ok_iff (gate : SessionGate) (session : Session) (principal : Principal) :
    gate.check session = .ok principal ↔
      session.authenticated = true ∧ session.userId = some principal.userId := by
  cases principal with
  | mk id =>
    cases hu : session.userId with
    | none => simp [check, hu]
    | some other =>
      cases ha : session.authenticated <;>
        simp [check, hu, Session.isAuthenticated, ha]

theorem check_isOk_iff (gate : SessionGate) (session : Session) :
    (∃ principal, gate.check session = .ok principal) ↔ session.isAuthenticated = true := by
  simp only [check_eq_ok_iff, Session.isAuthenticated, Bool.and_eq_true, Option.isSome_iff_exists]
  constructor
  · rintro ⟨⟨id⟩, hflag, hid⟩
    exact ⟨hflag, id, hid⟩
  · rintro ⟨hflag, id, hid⟩
    exact ⟨⟨id⟩, hflag, hid⟩

theorem check_eq_error {gate : SessionGate} {session : Session}
    (h : session.isAuthenticated = false) : gate.check session = .error gate.loginRoute := by
  unfold check
  split
  · simp [h]
  · rfl

theorem route_of_check {gate : SessionGate} {session : Session} {route : Route}
    (h : gate.check session = .error route) : route = gate.loginRoute := by
  cases hauthenticated : session.isAuthenticated with
  | false =>
    rw [check_eq_error hauthenticated] at h
    exact (Except.error.inj h).symm
  | true =>
    obtain ⟨principal, hok⟩ := (check_isOk_iff gate session).2 hauthenticated
    rw [hok] at h
    cases h

end SessionGate

end Gatehouse
