import Gatehouse.Attempt
import Gatehouse.User

set_option autoImplicit false

/-!
# Credential stores

What a store of accounts answers. The rest of the library works with any such store, over whatever
state it keeps.
-/

namespace Gatehouse

inductive CredentialError where
  | userAlreadyExists
  | unavailable (reason : String)
  | unexpected (reason : String)
  deriving DecidableEq, Repr

namespace CredentialError

def message : CredentialError → String
  | .userAlreadyExists => "User already exists"
  | .unavailable reason => s!"Credential store unavailable: {reason}"
  | .unexpected reason => s!"Unexpected error {reason}"

/-- Errors are the same when they are of one kind; the reason is for people. -/
def sameKind : CredentialError → CredentialError → Bool
  | .userAlreadyExists, .userAlreadyExists => true
  | .unavailable _, .unavailable _ => true
  | .unexpected _, .unexpected _ => true
  | _, _ => false

end CredentialError

structure CredentialStore (σ : Type) where
  find : Username → Attempt CredentialError σ (Option User)
  get : UserId → Attempt CredentialError σ (Option User)
  /-- Whether a name has an account. -/
  isTaken : Username → Attempt CredentialError σ Bool
  /-- Adds an account; refused when the name has one. -/
  create : Username → Password → Attempt CredentialError σ User
  /-- Whether a name has an account with this password. -/
  verify : Username → Password → Attempt CredentialError σ Bool

namespace CredentialStore

variable {σ τ : Type}

def onPart (part : τ → σ) (withPart : σ → τ → τ) (store : CredentialStore σ) :
    CredentialStore τ where
  find name := (store.find name).onPart part withPart
  get id := (store.get id).onPart part withPart
  isTaken name := (store.isTaken name).onPart part withPart
  create name password := (store.create name password).onPart part withPart
  verify name password := (store.verify name password).onPart part withPart

end CredentialStore

end Gatehouse
