import Gatehouse.Keyed
import Gatehouse.Session.Store

set_option autoImplicit false

/-!
# Sessions in memory

Each entry lives until its expiry, which is fixed when it is saved. Expired entries are dropped when
they are met: by a load of their token, and by every save. Times are nanoseconds since 1970.
-/

namespace Gatehouse

/-- A session, and the time from which on it counts as gone. -/
structure SessionEntry where
  session : Session
  expiresAt : Nat
  deriving DecidableEq, Repr

structure MemorySessions where
  entries : Keyed SessionToken SessionEntry := {}
  now : Nat := 0
  deriving DecidableEq

namespace MemorySessions

def latest : Nat := 8210266876799999999999

/-- How long sessions live: so many seconds, but not more than the clock can add. -/
def lifetime (ttl : UInt64) : Nat :=
  min ttl.toNat (0x7FFFFFFFFFFFFFFF / 1000) * 1000000000

def expiry (ttl : UInt64) (now : Nat) : Nat :=
  min (now + lifetime ttl) latest

def isLive (now : Nat) (entry : SessionEntry) : Bool :=
  now < entry.expiresAt

def stored? (store : MemorySessions) (token : SessionToken) : Option SessionEntry :=
  store.entries.get? token

def drop (store : MemorySessions) (token : SessionToken) : MemorySessions :=
  { store with entries := store.entries.erase token }

def put (store : MemorySessions) (token : SessionToken) (entry : SessionEntry) :
    MemorySessions :=
  { store with entries := store.entries.insert token entry }

def dropExpired (store : MemorySessions) (now : Nat) (token : SessionToken) : MemorySessions :=
  match store.stored? token with
  | some entry => if isLive now entry then store else store.drop token
  | none => store

def purge (store : MemorySessions) (now : Nat) : MemorySessions :=
  { store with entries := store.entries.keep fun _ entry => isLive now entry }

def load (token : SessionToken) (store : MemorySessions) : Option Session × MemorySessions :=
  match store.stored? token with
  | some entry =>
    if isLive store.now entry then (some entry.session, store)
    else (none, store.dropExpired store.now token)
  | none => (none, store)

def save (ttl : UInt64) (token : SessionToken) (session : Session) (store : MemorySessions) :
    MemorySessions :=
  (store.purge store.now).put token ⟨session, expiry ttl store.now⟩

def size (store : MemorySessions) : Nat := store.entries.size

theorem stored?_drop (store : MemorySessions) (token other : SessionToken) :
    (store.drop token).stored? other = if other = token then none else store.stored? other :=
  Keyed.get?_erase store.entries token other

theorem stored?_put (store : MemorySessions) (token other : SessionToken) (entry : SessionEntry) :
    (store.put token entry).stored? other =
      if other = token then some entry else store.stored? other :=
  Keyed.get?_insert store.entries token other entry

theorem stored?_purge (store : MemorySessions) (now : Nat) (token : SessionToken) :
    (store.purge now).stored? token = (store.stored? token).filter (isLive now) :=
  Keyed.get?_keep store.entries _ token

/-- The sessions of this process, with a lifetime in seconds. It never fails. -/
def store (ttl : UInt64) : SessionStore MemorySessions where
  load token := .ofFunction fun state => (.ok (load token state).1, (load token state).2)
  save token session := modify (save ttl token session)
  remove token := modify (drop · token)

end MemorySessions

end Gatehouse
