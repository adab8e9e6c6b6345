import Gatehouse.Keyed
import Gatehouse.Session.Codec
import Gatehouse.Session.Store

set_option autoImplicit false

/-!
# Sessions in a key-value server

Sessions are kept outside the process as JSON, under a key made of the token, by a server that
forgets a key when its time is over. A payload that is no session is reported as corrupt; every
other failure comes from the server.
-/

namespace Gatehouse

structure KeyValueServer (κ : Type) where
  get : String → Attempt String κ (Option (List UInt8))
  setExpiring : String → UInt64 → List UInt8 → Attempt String κ Unit
  delete : String → Attempt String κ Unit

namespace KeyValueSessions

variable {κ : Type}

def key (token : SessionToken) : String :=
  "session:" ++ toString token

/-- The session that a payload denotes. A payload must be text at all. -/
def ofPayload (payload : List UInt8) : Except SessionStoreError Session :=
  match Text.ofUtf8? payload with
  | none => .error (.database "the payload is not text")
  | some _ =>
    match Session.ofStored? payload with
    | some session => .ok session
    | none => .error (.corrupt "the payload is not a session")

def load (server : KeyValueServer κ) (token : SessionToken) :
    Attempt SessionStoreError κ (Option Session) := do
  match ← (server.get (key token)).mapError .database with
  | none => pure none
  | some payload =>
    match ofPayload payload with
    | .ok session => pure (some session)
    | .error error => throw error

def store (server : KeyValueServer κ) (ttl : UInt64) : SessionStore κ where
  load := load server
  save token session :=
    (server.setExpiring (key token) ttl (Text.utf8 session.toStored.toList)).mapError .database
  remove token := (server.delete (key token)).mapError .database

end KeyValueSessions

structure ExpiringMap where
  entries : Keyed String (List UInt8 × Nat) := {}
  now : Nat := 0
  deriving DecidableEq, Repr

namespace ExpiringMap

def get? (map : ExpiringMap) (key : String) : Option (List UInt8) :=
  match map.entries.get? key with
  | some (value, expiresAt) => if map.now < expiresAt then some value else none
  | none => none

def delete (map : ExpiringMap) (key : String) : ExpiringMap :=
  { map with entries := map.entries.erase key }

def set (map : ExpiringMap) (key : String) (seconds : UInt64) (value : List UInt8) :
    ExpiringMap :=
  { map with entries := map.entries.insert key (value, map.now + seconds.toNat * 1000000000) }

/-- The map as a server. It refuses a lifetime of nothing. -/
def server : KeyValueServer ExpiringMap where
  get key := .ofFunction fun map => (.ok (map.get? key), map)
  setExpiring key seconds value :=
    if seconds = 0 then throw "invalid expire time" else modify (set · key seconds value)
  delete key := modify (delete · key)

end ExpiringMap

end Gatehouse
