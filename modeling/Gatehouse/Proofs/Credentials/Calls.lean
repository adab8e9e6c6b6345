import Gatehouse.Credentials.Accounts
import Gatehouse.Proofs.Attempt

set_option autoImplicit false

/-!
# Calls on a store of accounts

A store can be made to write down the calls that it answers. It answers as before, so what it has
written down are the calls that are made on the store itself.
-/

namespace Gatehouse

/-- A call on a store, which knows its users by ids of some kind. -/
inductive CredentialCall (ι : Type) where
  | find (name : Username)
  | get (id : ι)
  | isTaken (name : Username)
  | create (name : Username) (password : Password)
  | verify (name : Username) (password : Password)

namespace CredentialCall

variable {ι κ : Type}

def mapId (f : ι → κ) : CredentialCall ι → CredentialCall κ
  | find name => find name
  | get id => get (f id)
  | isTaken name => isTaken name
  | create name password => create name password
  | verify name password => verify name password

/-- How many users the calls may add. -/
def creations : List (CredentialCall ι) → Nat
  | [] => 0
  | create _ _ :: calls => creations calls + 1
  | _ :: calls => creations calls

end CredentialCall

structure Recorded (σ : Type) where
  accounts : σ
  calls : List (CredentialCall UserId) := []

namespace Recorded

variable {σ : Type}

def note (call : CredentialCall UserId) (accounts : σ) (recorded : Recorded σ) : Recorded σ :=
  ⟨accounts, recorded.calls ++ [call]⟩

end Recorded

namespace Attempt

variable {ε ε' σ α : Type}

def Notes (plain : Attempt ε σ α) (noted : Attempt ε (Recorded σ) α)
    (calls : σ → List (CredentialCall UserId)) : Prop :=
  ∀ accounts written, noted.runFrom ⟨accounts, written⟩ =
    ((plain.runFrom accounts).1, ⟨(plain.runFrom accounts).2, written ++ calls accounts⟩)

theorem notes_pure (value : α) :
    Notes (pure value : Attempt ε σ α) (pure value) fun _ => [] := by
  intro accounts written
  simp

theorem notes_throw (error : ε) :
    Notes (throw error : Attempt ε σ α) (throw error) fun _ => [] := by
  intro accounts written
  simp

end Attempt

namespace CredentialStore

variable {σ : Type} (store : CredentialStore σ)

/-- The same store, writing down its calls. -/
def recorded : CredentialStore (Recorded σ) where
  find name := (store.find name).onPart Recorded.accounts (Recorded.note (.find name))
  get id := (store.get id).onPart Recorded.accounts (Recorded.note (.get id))
  isTaken name := (store.isTaken name).onPart Recorded.accounts (Recorded.note (.isTaken name))
  create name password :=
    (store.create name password).onPart Recorded.accounts (Recorded.note (.create name password))
  verify name password :=
    (store.verify name password).onPart Recorded.accounts (Recorded.note (.verify name password))

def loginCalls (name : Username) (password : Password) (accounts : σ) :
    List (CredentialCall UserId) :=
  .verify name password ::
    match (store.verify name password).runFrom accounts with
    | (.ok true, _) => [.find name]
    | _ => []

def registerCalls (name : Username) (password : Password) (accounts : σ) :
    List (CredentialCall UserId) :=
  .isTaken name ::
    match (store.isTaken name).runFrom accounts with
    | (.ok false, _) => [.create name password]
    | _ => []

theorem notes_login (session : Session) (name : Username) (password : Password) :
    Attempt.Notes (store.login session name password) (store.recorded.login session name password)
      (store.loginCalls name password) := by
  intro accounts written
  simp only [login, loginCalls, recorded, Attempt.runFrom_bind, Attempt.runFrom_mapError,
    Attempt.runFrom_onPart, Recorded.note]
  rcases (store.verify name password).runFrom accounts with ⟨error | _ | _, mid⟩
  · rfl
  · rfl
  · simp only [Attempt.mapError_ok, if_true, Attempt.runFrom_bind, Attempt.runFrom_mapError,
      Attempt.runFrom_onPart]
    rcases (store.find name).runFrom mid with ⟨error | _ | user, last⟩ <;> simp [Recorded.note]

theorem notes_register (name : Username) (password : Password) :
    Attempt.Notes (store.register name password) (store.recorded.register name password)
      (store.registerCalls name password) := by
  intro accounts written
  simp only [register, registerCalls, recorded, Attempt.runFrom_bind, Attempt.runFrom_mapError,
    Attempt.runFrom_onPart, Recorded.note]
  rcases (store.isTaken name).runFrom accounts with ⟨error | _ | _, mid⟩
  · rfl
  · simp [Recorded.note]
  · rfl

end CredentialStore

end Gatehouse
