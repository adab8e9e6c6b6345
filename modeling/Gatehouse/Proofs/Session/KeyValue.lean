import Gatehouse.Proofs.Attempt
import Gatehouse.Proofs.Session.Codec
import Gatehouse.Proofs.Session.Keeping
import Gatehouse.Proofs.Session.Token
import Gatehouse.Session.KeyValue

set_option autoImplicit false

/-!
# What is kept in a key-value server

A store over a server keeps the laws of a session store as soon as the server keeps those of a map
whose entries expire. Under the key of a token there may be anything; what reads as no session is
kept as such.
-/

namespace Gatehouse

structure KeyValueServer.Expiring {κ : Type} (server : KeyValueServer κ) extends
    TimedView κ String (List UInt8) where
  get_ok : ∀ {key state result after},
    (server.get key).runFrom state = (.ok result, after) →
      toTimedView.live? state key = result ∧ toTimedView.Steady state after
  set_ok : ∀ {key seconds value state after},
    (server.setExpiring key seconds value).runFrom state = (.ok (), after) →
      toTimedView.Sets key (some ⟨value, now state + seconds.toNat * 1000000000⟩) state after
  delete_ok : ∀ {key state after},
    (server.delete key).runFrom state = (.ok (), after) → toTimedView.Sets key none state after

namespace KeyValueSessions

variable {κ : Type} {server : KeyValueServer κ}

theorem key_inj {a b : SessionToken} (h : key a = key b) : a = b := by
  refine SessionToken.toString_inj (String.toList_injective ?_)
  have hlist := congrArg String.toList h
  simpa [key, String.toList_append] using hlist

def readKept (kept : Kept (List UInt8)) : Kept (Option Session) :=
  ⟨Session.ofStored? kept.value, kept.expiresAt⟩

def view (server : TimedView κ String (List UInt8)) :
    TimedView κ SessionToken (Option Session) where
  now := server.now
  kept? state token := (server.kept? state (key token)).map readKept

variable {bytes : TimedView κ String (List UInt8)} {state after : κ}

theorem kept?_view (state : κ) (token : SessionToken) :
    (view bytes).kept? state token = (bytes.kept? state (key token)).map readKept := rfl

theorem live?_view (state : κ) (token : SessionToken) :
    (view bytes).live? state token = (bytes.live? state (key token)).map Session.ofStored? := by
  rw [TimedView.live?, TimedView.live?, kept?_view]
  cases bytes.kept? state (key token) with
  | none => rfl
  | some kept =>
    have hnow : (view bytes).now state = bytes.now state := rfl
    by_cases h : bytes.now state < kept.expiresAt
    · simp [Kept.live?, Option.filter, readKept, hnow, h]
    · simp [Kept.live?, Option.filter, readKept, hnow, h]

theorem spares_view {token : SessionToken} (h : bytes.Spares state after (key token)) :
    (view bytes).Spares state after token :=
  Kept.Lasts.map readKept (fun _ => rfl) h

theorem steady_view (h : bytes.Steady state after) : (view bytes).Steady state after :=
  ⟨h.now_eq, fun token => spares_view (h.spares (key token))⟩

theorem sets_view {token : SessionToken} {kept : Option (Kept (List UInt8))}
    (h : bytes.Sets (key token) kept state after) :
    (view bytes).Sets token (kept.map readKept) state after := by
  refine ⟨h.now_eq, ?_, fun other hne => ?_⟩
  · rw [kept?_view, h.kept?_self]
  · exact spares_view (h.spares (key other) fun he => hne (key_inj he))

theorem ofStored?_of_ofPayload {payload : List UInt8} {session : Session}
    (h : ofPayload payload = .ok session) : Session.ofStored? payload = some session := by
  rw [ofPayload] at h
  split at h
  · cases h
  · split at h
    · cases h
      assumption
    · cases h

theorem ofStored?_of_corrupt {payload : List UInt8} {reason : String}
    (h : ofPayload payload = .error (.corrupt reason)) : Session.ofStored? payload = none := by
  rw [ofPayload] at h
  split at h
  · cases h
  · split at h
    · cases h
    · assumption

theorem runFrom_load {token : SessionToken} {value : Option (List UInt8)}
    (h : (server.get (key token)).runFrom state = (.ok value, after)) :
    (load server token).runFrom state =
      (value.elim (.ok none) fun payload => (ofPayload payload).map some, after) := by
  rw [load, Attempt.runFrom_bind, Attempt.runFrom_mapError_eq_ok.2 h]
  cases value with
  | none => rfl
  | some payload =>
    simp only [Option.elim]
    cases ofPayload payload <;> rfl

/-- A load that does not end in a failure of the server has read a value. -/
theorem get_of_load {token : SessionToken} {result : Except SessionStoreError (Option Session)}
    (h : (load server token).runFrom state = (result, after))
    (hresult : ∀ reason, result ≠ .error (.database reason)) :
    ∃ value, (server.get (key token)).runFrom state = (.ok value, after) ∧
      result = value.elim (.ok none) fun payload => (ofPayload payload).map some := by
  rcases hget : (server.get (key token)).runFrom state with ⟨reason | value, mid⟩
  · rw [load, Attempt.runFrom_bind, Attempt.runFrom_mapError, hget] at h
    cases h
    exact absurd rfl (hresult reason)
  · rw [runFrom_load hget] at h
    cases h
    exact ⟨value, rfl, rfl⟩

theorem load_ok (law : server.Expiring) {token : SessionToken} {result : Option Session}
    (h : (load server token).runFrom state = (.ok result, after)) :
    (view law.toTimedView).live? state token = result.map some ∧
      (view law.toTimedView).Steady state after := by
  obtain ⟨value, hget, hresult⟩ := get_of_load h (by simp)
  obtain ⟨hlive, hsteady⟩ := law.get_ok hget
  refine ⟨?_, steady_view hsteady⟩
  rw [live?_view, hlive]
  cases value with
  | none =>
    cases hresult
    rfl
  | some payload =>
    cases hpayload : ofPayload payload with
    | error error => simp [hpayload, Except.map] at hresult
    | ok session =>
      simp only [Option.elim, hpayload, Except.map, Except.ok.injEq] at hresult
      subst hresult
      exact congrArg some (ofStored?_of_ofPayload hpayload)

theorem load_corrupt (law : server.Expiring) {token : SessionToken} {reason : String}
    (h : (load server token).runFrom state = (.error (.corrupt reason), after)) :
    (view law.toTimedView).live? state token = some none ∧
      (view law.toTimedView).Steady state after := by
  obtain ⟨value, hget, hresult⟩ := get_of_load h (by simp)
  obtain ⟨hlive, hsteady⟩ := law.get_ok hget
  refine ⟨?_, steady_view hsteady⟩
  rw [live?_view, hlive]
  cases value with
  | none => cases hresult
  | some payload =>
    cases hpayload : ofPayload payload with
    | ok session => simp [hpayload, Except.map] at hresult
    | error error =>
      simp only [Option.elim, hpayload, Except.map, Except.error.injEq] at hresult
      subst hresult
      exact congrArg some (ofStored?_of_corrupt hpayload)

theorem save_ok (law : server.Expiring) {ttl : UInt64} {token : SessionToken} {session : Session}
    (h : ((store server ttl).save token session).runFrom state = (.ok (), after)) :
    (view law.toTimedView).Sets token
      (some ⟨some session, law.now state + ttl.toNat * 1000000000⟩) state after := by
  have hset := law.set_ok (Attempt.runFrom_mapError_eq_ok.1 h)
  have hread := Session.ofStored?_toStored session
  have hsets := sets_view hset
  simp only [Option.map_some, readKept, hread] at hsets
  exact hsets

def keeping (law : server.Expiring) (ttl : UInt64) : SessionKeeping (store server ttl) where
  toTimedView := view law.toTimedView
  expiry now := now + ttl.toNat * 1000000000
  load_ok := load_ok law
  load_corrupt := load_corrupt law
  save_ok := save_ok law
  remove_ok h := sets_view (law.delete_ok (Attempt.runFrom_mapError_eq_ok.1 h))

end KeyValueSessions

namespace ExpiringMap

def view : TimedView ExpiringMap String (List UInt8) where
  now map := map.now
  kept? map key := (map.entries.get? key).map fun entry => ⟨entry.1, entry.2⟩

theorem kept?_view (map : ExpiringMap) (key : String) :
    view.kept? map key = (map.entries.get? key).map fun entry => ⟨entry.1, entry.2⟩ := rfl

theorem live?_view (map : ExpiringMap) (key : String) : view.live? map key = map.get? key := by
  have hnow : view.now map = map.now := rfl
  rw [TimedView.live?, kept?_view, get?]
  rcases map.entries.get? key with _ | ⟨value, expiresAt⟩
  · rfl
  · by_cases h : map.now < expiresAt
    · simp [Kept.live?, Option.filter, hnow, h]
    · simp [Kept.live?, Option.filter, hnow, h]

theorem sets_set (map : ExpiringMap) (key : String) (seconds : UInt64) (value : List UInt8) :
    view.Sets key (some ⟨value, map.now + seconds.toNat * 1000000000⟩) map
      (map.set key seconds value) := by
  refine ⟨rfl, ?_, fun other hne => .inl ?_⟩
  · simp [kept?_view, set, Keyed.get?_insert]
  · simp [kept?_view, set, Keyed.get?_insert, hne]

theorem sets_delete (map : ExpiringMap) (key : String) :
    view.Sets key none map (map.delete key) := by
  refine ⟨rfl, ?_, fun other hne => .inl ?_⟩
  · simp [kept?_view, delete, Keyed.get?_erase]
  · simp [kept?_view, delete, Keyed.get?_erase, hne]

def expiring : server.Expiring where
  toTimedView := view
  get_ok := by
    intro key state result after h
    cases h
    exact ⟨live?_view state key, .refl state⟩
  set_ok := by
    intro key seconds value state after h
    by_cases hzero : seconds = 0
    · simp [server, hzero] at h
    · simp only [server, hzero, if_false, Attempt.runFrom_modify, Prod.mk.injEq, true_and] at h
      subst h
      exact sets_set state key seconds value
  delete_ok := by
    intro key state after h
    cases h
    exact sets_delete state key

end ExpiringMap

end Gatehouse
