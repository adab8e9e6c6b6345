import Gatehouse.Credentials.Store
import Gatehouse.Session.Gate

set_option autoImplicit false

/-!
# Signing in, registering, and loading a profile

What visitors do with their accounts, over any credential store.
-/

namespace Gatehouse

inductive AuthError where
  | invalidCredentials
  | duplicateUsername
  | missingStoreFile
  | unauthenticatedAccess
  deriving DecidableEq, Repr

def AuthError.message : AuthError → String
  | .invalidCredentials => "Invalid username or password"
  | .duplicateUsername => "Username already exists"
  | .missingStoreFile => "Backing store file is missing"
  | .unauthenticatedAccess => "Authentication required"

def CredentialError.asCause (error : CredentialError) : String :=
  s!"Credential store error: {error.message}"

inductive LoginError where
  | auth (error : AuthError)
  | store (error : CredentialError)
  deriving DecidableEq, Repr

def LoginError.message : LoginError → String
  | .auth error => error.message
  | .store error => error.asCause

inductive RegisterError where
  | auth (error : AuthError)
  | store (error : CredentialError)
  deriving DecidableEq, Repr

namespace RegisterError

def message : RegisterError → String
  | .auth error => error.message
  | .store error => error.asCause

def ofStore : CredentialError → RegisterError
  | .userAlreadyExists => .auth .duplicateUsername
  | error => .store error

end RegisterError

inductive ProfileError where
  | unknownUser
  | store (error : CredentialError)
  deriving DecidableEq, Repr

def ProfileError.message : ProfileError → String
  | .unknownUser => "Authenticated user no longer exists"
  | .store error => error.asCause

namespace CredentialStore

variable {σ : Type}

/-- Signs a session in. An account that vanishes after its password has matched is a bad login. -/
def login (store : CredentialStore σ) (session : Session) (name : Username)
    (password : Password) : Attempt LoginError σ (UserId × Session) := do
  let matched ← (store.verify name password).mapError .store
  if matched then
    match ← (store.find name).mapError .store with
    | some user => pure (user.id, session.authenticate user.id)
    | none => throw (.auth .invalidCredentials)
  else throw (.auth .invalidCredentials)

/-- Adds an account, unless its name is taken. -/
def register (store : CredentialStore σ) (name : Username) (password : Password) :
    Attempt RegisterError σ User := do
  let taken ← (store.isTaken name).mapError .ofStore
  if taken then throw (.auth .duplicateUsername)
  else (store.create name password).mapError .ofStore

def loadProfile (store : CredentialStore σ) (principal : Principal) :
    Attempt ProfileError σ User := do
  match ← (store.get principal.userId).mapError .store with
  | some user => pure user
  | none => throw .unknownUser

end CredentialStore

end Gatehouse
