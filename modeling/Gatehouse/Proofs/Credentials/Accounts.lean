import Gatehouse.Credentials.Accounts

set_option autoImplicit false

/-!
# What becomes of a registration and of a login
-/

namespace Gatehouse.CredentialStore

variable {σ : Type} {store : CredentialStore σ} {name : Username} {password : Password}
  {state after : σ}

/-- A user is found under its name, as it is, and nothing changes. -/
def Finds (store : CredentialStore σ) (state : σ) (user : User) : Prop :=
  (store.find user.username).runFrom state = (.ok (some user), state)

instance [DecidableEq σ] (store : CredentialStore σ) (state : σ) (user : User) :
    Decidable (store.Finds state user) :=
  match h : (store.find user.username).runFrom state with
  | (.ok (some found), left) =>
    decidable_of_iff (found = user ∧ left = state) (by simp [Finds, h])
  | (.ok none, _) => isFalse (by simp [Finds, h])
  | (.error _, _) => isFalse (by simp [Finds, h])

theorem runFrom_register (store : CredentialStore σ) (name : Username) (password : Password)
    (state : σ) :
    (store.register name password).runFrom state =
      match (store.isTaken name).runFrom state with
      | (.ok true, after) => (.error (.auth .duplicateUsername), after)
      | (.ok false, after) =>
        (((store.create name password).runFrom after).1.mapError .ofStore,
          ((store.create name password).runFrom after).2)
      | (.error error, after) => (.error (.ofStore error), after) := by
  rw [register, Attempt.runFrom_bind, Attempt.runFrom_mapError]
  rcases (store.isTaken name).runFrom state with ⟨outcome, mid⟩
  cases outcome with
  | error error => rfl
  | ok taken =>
    cases taken with
    | true => rfl
    | false => exact Attempt.runFrom_mapError _ _ _

theorem runFrom_login_of_matched (session : Session) {user : User}
    (hverify : (store.verify name password).runFrom state = (.ok true, state))
    (hfind : (store.find name).runFrom state = (.ok (some user), state)) :
    (store.login session name password).runFrom state =
      (.ok (user.id, session.authenticate user.id), state) := by
  rw [login, Attempt.runFrom_bind, Attempt.runFrom_mapError, hverify]
  change Attempt.runFrom (_ >>= _) state = _
  rw [Attempt.runFrom_bind, Attempt.runFrom_mapError, hfind]
  rfl

theorem runFrom_login_of_unmatched (session : Session)
    (hverify : (store.verify name password).runFrom state = (.ok false, state)) :
    (store.login session name password).runFrom state =
      (.error (.auth .invalidCredentials), state) := by
  rw [login, Attempt.runFrom_bind, Attempt.runFrom_mapError, hverify]
  rfl

end Gatehouse.CredentialStore
