import Gatehouse.Attempt
import Gatehouse.Session.Basic
import Gatehouse.Session.Token

set_option autoImplicit false

/-!
# Session stores
-/

namespace Gatehouse

inductive SessionStoreError where
  | database (reason : String)
  | corrupt (reason : String)
  deriving DecidableEq, Repr

namespace SessionStoreError

def summary : SessionStoreError → String
  | .database _ => "Session store error"
  | .corrupt _ => "Corrupt session payload"

def reason : SessionStoreError → String
  | .database reason => reason
  | .corrupt reason => reason

def message (error : SessionStoreError) : String :=
  s!"{error.summary}: {error.reason}"

end SessionStoreError

structure SessionStore (σ : Type) where
  load : SessionToken → Attempt SessionStoreError σ (Option Session)
  /-- Puts a session under a token, for as long as the store keeps sessions. -/
  save : SessionToken → Session → Attempt SessionStoreError σ Unit
  /-- Forgets the session under a token, if there is one. -/
  remove : SessionToken → Attempt SessionStoreError σ Unit

namespace SessionStore

variable {σ τ : Type}

def onPart (part : τ → σ) (withPart : σ → τ → τ) (store : SessionStore σ) : SessionStore τ where
  load token := (store.load token).onPart part withPart
  save token session := (store.save token session).onPart part withPart
  remove token := (store.remove token).onPart part withPart

end SessionStore

end Gatehouse
