import Gatehouse.Credentials.Store
import Gatehouse.Password.Policy

set_option autoImplicit false

/-!
# A supply of salts

Stores that hash passwords draw a salt for each. The supply is a sequence; the state counts how many
have been drawn, so two stores with one sequence hash the n-th password alike.
-/

namespace Gatehouse

structure Salted (σ : Type) where
  contents : σ
  drawn : Nat := 0
  deriving DecidableEq, Repr

namespace Salted

variable {ε σ α : Type}

def withContents (contents : σ) (state : Salted σ) : Salted σ :=
  { state with contents }

def onContents (attempt : Attempt ε σ α) : Attempt ε (Salted σ) α :=
  attempt.onPart contents withContents

def protect (policy : PasswordPolicy) (salts : Nat → Salt) (password : Password) :
    Attempt ε (Salted σ) String :=
  .ofFunction fun state =>
    (.ok (policy.protect (salts state.drawn) password), { state with drawn := state.drawn + 1 })

end Salted

/-- The answer of a policy, as a store gives it. -/
def PasswordPolicy.answer {σ : Type} (policy : PasswordPolicy) (stored : String)
    (password : Password) : Attempt CredentialError σ Bool :=
  match policy.verify stored password with
  | .ok matched => pure matched
  | .error error => throw (.unexpected error.message)

end Gatehouse
