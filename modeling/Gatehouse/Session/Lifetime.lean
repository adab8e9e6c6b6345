import Gatehouse.Session.Memory

set_option autoImplicit false

/-!
# The span for which sessions live

Spans of time are counted in milliseconds in a signed word, and time ends with the last time that is
told. A span that does not fit into its word cannot be made, and a sum after the end is no time. The
lifetime of a store is cut to the longest span before one is made of it.
-/

namespace Gatehouse

def signedWord? (n : UInt64) : Option Int64 :=
  if n.toNat ≤ Int64.maxValue.toNatClampNeg then some n.toInt64 else none

def TimeSpan.maxSeconds : Int64 := Int64.maxValue / 1000

/-- A span forward in time, in whole seconds. -/
structure TimeSpan where
  seconds : Int64
  forward : 0 ≤ seconds
  fits : seconds ≤ TimeSpan.maxSeconds

namespace TimeSpan

def ofSeconds? (seconds : Int64) : Option TimeSpan :=
  if h : 0 ≤ seconds ∧ seconds ≤ maxSeconds then some ⟨seconds, h.1, h.2⟩ else none

def nanoseconds (span : TimeSpan) : Nat :=
  span.seconds.toNatClampNeg * 1000000000

def after? (span : TimeSpan) (time : Nat) : Option Nat :=
  if time + span.nanoseconds ≤ MemorySessions.latest then some (time + span.nanoseconds) else none

end TimeSpan

namespace MemorySessions

def span? (ttl : UInt64) : Option TimeSpan :=
  TimeSpan.ofSeconds? (min ((signedWord? ttl).getD Int64.maxValue) TimeSpan.maxSeconds)

def saveFor (span : TimeSpan) (token : SessionToken) (session : Session) (store : MemorySessions) :
    MemorySessions :=
  (store.purge store.now).put token ⟨session, (span.after? store.now).getD latest⟩

/-- The store as it is made from its lifetime; none, if the arithmetic has no result. -/
def make? (ttl : UInt64) : Option (SessionStore MemorySessions) :=
  (span? ttl).map fun span =>
    { store ttl with save := fun token session => modify (saveFor span token session) }

end MemorySessions

end Gatehouse
