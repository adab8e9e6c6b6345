import Gatehouse.Session.Store

set_option autoImplicit false

/-!
# Session stores with faults

Any store, whose methods can be made to fail before they touch anything.
-/

namespace Gatehouse

structure SessionFaults where
  load : Option SessionStoreError := none
  save : Option SessionStoreError := none
  remove : Option SessionStoreError := none
  deriving DecidableEq, Repr

structure Faulty (σ : Type) where
  contents : σ
  faults : SessionFaults := {}
  deriving DecidableEq, Repr

namespace Faulty

variable {ε σ α : Type}

def withContents (contents : σ) (state : Faulty σ) : Faulty σ :=
  { state with contents }

def attempt (fault : SessionFaults → Option SessionStoreError)
    (step : Attempt SessionStoreError σ α) : Attempt SessionStoreError (Faulty σ) α := do
  match fault (← get).faults with
  | some error => throw error
  | none => step.onPart contents withContents

end Faulty

def SessionStore.withFaults {σ : Type} (store : SessionStore σ) : SessionStore (Faulty σ) where
  load token := Faulty.attempt (·.load) (store.load token)
  save token session := Faulty.attempt (·.save) (store.save token session)
  remove token := Faulty.attempt (·.remove) (store.remove token)

end Gatehouse
