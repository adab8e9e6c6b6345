import Gatehouse.Credentials.Store

set_option autoImplicit false

/-!
# Accounts with fixed answers

A store that says what it is told to say, however the answers fit together. Whatever holds over such
stores holds without trust in a store.
-/

namespace Gatehouse

structure ScriptedCredentials where
  find : Except CredentialError (Option User) := .ok none
  get : Except CredentialError (Option User) := .ok none
  isTaken : Except CredentialError Bool := .ok false
  verify : Except CredentialError Bool := .ok false
  refusal : Option CredentialError := none

namespace ScriptedCredentials

variable {σ : Type}

def store (answers : ScriptedCredentials) : CredentialStore σ where
  find _ := ExceptT.mk (pure answers.find)
  get _ := ExceptT.mk (pure answers.get)
  isTaken _ := ExceptT.mk (pure answers.isTaken)
  verify _ _ := ExceptT.mk (pure answers.verify)
  create name password :=
    match answers.refusal with
    | some error => throw error
    | none => pure (User.named name password.text)

end ScriptedCredentials

end Gatehouse
