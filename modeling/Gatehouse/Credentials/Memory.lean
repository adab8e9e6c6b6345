import Gatehouse.Credentials.Salted
import Gatehouse.Credentials.UserTable

set_option autoImplicit false

/-!
# Accounts in memory

The users are lost with the process. Ids are the names themselves.
-/

namespace Gatehouse.MemoryCredentials

def find (name : Username) : Attempt CredentialError (Salted UserTable) (Option User) := do
  let state ← get
  pure ((state.contents.get? name.text).map (User.named name))

def getById (id : UserId) : Attempt CredentialError (Salted UserTable) (Option User) :=
  match Username.ofText? id.text with
  | some name => find name
  | none => pure none

def isTaken (name : Username) : Attempt CredentialError (Salted UserTable) Bool := do
  let state ← get
  pure (state.contents.contains name.text)

/-- Adds a user, whose password is protected before the name is looked up. -/
def create (policy : PasswordPolicy) (salts : Nat → Salt) (name : Username)
    (password : Password) : Attempt CredentialError (Salted UserTable) User := do
  let stored ← Salted.protect policy salts password
  let state ← get
  if state.contents.contains name.text then throw .userAlreadyExists
  else
    set (state.withContents (state.contents.insert name.text stored))
    pure (User.named name stored)

def verify (policy : PasswordPolicy) (name : Username) (password : Password) :
    Attempt CredentialError (Salted UserTable) Bool := do
  let state ← get
  match state.contents.get? name.text with
  | some stored => policy.answer stored password
  | none => pure false

def store (policy : PasswordPolicy) (salts : Nat → Salt) :
    CredentialStore (Salted UserTable) where
  find := find
  get := getById
  isTaken := isTaken
  create := create policy salts
  verify := verify policy

end Gatehouse.MemoryCredentials
