import Gatehouse.Proofs.Keyed
import Gatehouse.Proofs.Session.Confinement

set_option autoImplicit false

/-!
# Calls that fail without effect

A store whose calls are carried out or not at all: a call that fails leaves what is held as it was.
A load may forget what it was asked for, as happens with an expired session, but nothing else.
-/

namespace Gatehouse

/-- What a store holds for each token, and what a call does to it when it succeeds and when it
fails. -/
structure SessionStore.FailsCleanly {σ : Type} (store : SessionStore σ) (γ : Type) where
  contents : σ → γ
  forget : SessionToken → γ → γ
  session? : γ → SessionToken → Option Session
  forget_forget : ∀ token held, forget token (forget token held) = forget token held
  session?_forget : ∀ token other held,
    session? (forget token held) other = if other = token then none else session? held other
  load_ok : ∀ {token state session after},
    (store.load token).runFrom state = (.ok session, after) →
      session = session? (contents state) token ∧
        (contents after = contents state ∨ contents after = forget token (contents state))
  load_error : ∀ {token state error after},
    (store.load token).runFrom state = (.error error, after) → contents after = contents state
  save_error : ∀ {token session state error after},
    (store.save token session).runFrom state = (.error error, after) →
      contents after = contents state
  remove_ok : ∀ {token state after}, (store.remove token).runFrom state = (.ok (), after) →
    contents after = forget token (contents state)
  remove_error : ∀ {token state error after},
    (store.remove token).runFrom state = (.error error, after) → contents after = contents state

namespace SessionStore.FailsCleanly

variable {σ γ : Type} {store : SessionStore σ} (clean : store.FailsCleanly γ)

def Loses (presented : Option SessionToken) (before after : γ) : Prop :=
  after = before ∨ ∃ token, presented = some token ∧ after = clean.forget token before

variable {clean} {presented : Option SessionToken} {held mid after : γ}

theorem Loses.trans (h : clean.Loses presented held mid) (h' : clean.Loses presented mid after) :
    clean.Loses presented held after := by
  rcases h' with rfl | ⟨token, rfl, rfl⟩
  · exact h
  · rcases h with rfl | ⟨other, hother, rfl⟩
    · exact .inr ⟨token, rfl, rfl⟩
    · obtain rfl := Option.some.inj hother
      exact .inr ⟨token, rfl, clean.forget_forget token held⟩

theorem Loses.session?_before (h : clean.Loses presented held after) {token : SessionToken}
    {session : Session} (hsession : clean.session? after token = some session) :
    clean.session? held token = some session := by
  rcases h with rfl | ⟨other, -, rfl⟩
  · exact hsession
  · rw [clean.session?_forget] at hsession
    split at hsession
    · cases hsession
    · exact hsession

end SessionStore.FailsCleanly

namespace MemorySessions

/-- The session that is live under a token. -/
def session? (sessions : MemorySessions) (token : SessionToken) : Option Session :=
  (load token sessions).1

theorem drop_drop (sessions : MemorySessions) (token : SessionToken) :
    (sessions.drop token).drop token = sessions.drop token := by
  unfold drop
  rw [Keyed.erase_erase]

theorem session?_drop (sessions : MemorySessions) (token other : SessionToken) :
    (sessions.drop token).session? other =
      if other = token then none else sessions.session? other := by
  unfold session? load
  rw [stored?_drop]
  by_cases h : other = token
  · rw [if_pos h, if_pos h]
  · rw [if_neg h, if_neg h]
    cases sessions.stored? other with
    | none => rfl
    | some entry =>
      by_cases hlive : isLive sessions.now entry = true
      · simp [drop, hlive]
      · simp [drop, hlive]

theorem load_after (sessions : MemorySessions) (token : SessionToken) :
    (load token sessions).2 = sessions ∨ (load token sessions).2 = sessions.drop token := by
  unfold load
  cases h : sessions.stored? token with
  | none => exact .inl rfl
  | some entry =>
    by_cases hlive : isLive sessions.now entry = true
    · exact .inl (by simp [hlive])
    · exact .inr (by simp [dropExpired, h, hlive])

def failsCleanly (ttl : UInt64) : (store ttl).FailsCleanly MemorySessions where
  contents := id
  forget token sessions := sessions.drop token
  session? := session?
  forget_forget token sessions := drop_drop sessions token
  session?_forget token other sessions := session?_drop sessions token other
  load_ok := by
    intro token state session after h
    cases h
    exact ⟨rfl, load_after state token⟩
  load_error := by
    intro token state error after h
    cases h
  save_error := by
    intro token session state error after h
    cases h
  remove_ok := by
    intro token state after h
    cases h
    rfl
  remove_error := by
    intro token state error after h
    cases h

end MemorySessions

namespace Faulty

variable {σ α : Type} {fault : SessionFaults → Option SessionStoreError}
  {step : Attempt SessionStoreError σ α} {state after : Faulty σ}

theorem attempt_ok {value : α} (h : (attempt fault step).runFrom state = (.ok value, after)) :
    step.runFrom state.contents = (.ok value, after.contents) := by
  rw [runFrom_attempt] at h
  split at h
  · cases h
  · obtain ⟨hvalue, rfl⟩ := Prod.mk.inj h
    exact Prod.ext hvalue rfl

theorem attempt_error {error : SessionStoreError}
    (h : (attempt fault step).runFrom state = (.error error, after)) :
    after = state ∨ step.runFrom state.contents = (.error error, after.contents) := by
  rw [runFrom_attempt] at h
  split at h
  · cases h
    exact .inl rfl
  · obtain ⟨herror, rfl⟩ := Prod.mk.inj h
    exact .inr (Prod.ext herror rfl)

end Faulty

def SessionStore.FailsCleanly.withFaults {σ γ : Type} {store : SessionStore σ}
    (clean : store.FailsCleanly γ) : store.withFaults.FailsCleanly γ where
  contents state := clean.contents state.contents
  forget := clean.forget
  session? := clean.session?
  forget_forget := clean.forget_forget
  session?_forget := clean.session?_forget
  load_ok h := clean.load_ok (Faulty.attempt_ok h)
  load_error h := by
    rcases Faulty.attempt_error h with rfl | hinner
    · rfl
    · exact clean.load_error hinner
  save_error h := by
    rcases Faulty.attempt_error h with rfl | hinner
    · rfl
    · exact clean.save_error hinner
  remove_ok h := clean.remove_ok (Faulty.attempt_ok h)
  remove_error h := by
    rcases Faulty.attempt_error h with rfl | hinner
    · rfl
    · exact clean.remove_error hinner

/-- What a server holds under each key. A command that fails leaves it as it was, and reading a key
may make the server forget that it has expired. -/
structure KeyValueServer.FailsCleanly {κ : Type} (server : KeyValueServer κ) (γ : Type) where
  contents : κ → γ
  forget : String → γ → γ
  value? : γ → String → Option (List UInt8)
  forget_forget : ∀ key held, forget key (forget key held) = forget key held
  value?_forget : ∀ key other held,
    value? (forget key held) other = if other = key then none else value? held other
  get_ok : ∀ {key state value after}, (server.get key).runFrom state = (.ok value, after) →
    value = value? (contents state) key ∧ (contents after = contents state ∨
      value = none ∧ contents after = forget key (contents state))
  get_error : ∀ {key state error after}, (server.get key).runFrom state = (.error error, after) →
    contents after = contents state
  set_error : ∀ {key seconds value state error after},
    (server.setExpiring key seconds value).runFrom state = (.error error, after) →
      contents after = contents state
  delete_ok : ∀ {key state after}, (server.delete key).runFrom state = (.ok (), after) →
    contents after = forget key (contents state)
  delete_error : ∀ {key state error after},
    (server.delete key).runFrom state = (.error error, after) → contents after = contents state

namespace KeyValueSessions

variable {κ γ : Type} {server : KeyValueServer κ}

def sessionOf? (payload : List UInt8) : Option Session :=
  (ofPayload payload).toOption

variable (clean : server.FailsCleanly γ) {token : SessionToken} {state after : κ}

theorem session_of_load {session : Option Session}
    (h : (load server token).runFrom state = (.ok session, after)) :
    session = (clean.value? (clean.contents state) (key token)).bind sessionOf? ∧
      (clean.contents after = clean.contents state ∨
        clean.contents after = clean.forget (key token) (clean.contents state)) := by
  obtain ⟨value, hget, hsession⟩ := get_of_load h (by simp)
  obtain ⟨hvalue, hafter⟩ := clean.get_ok hget
  refine ⟨?_, hafter.imp_right And.right⟩
  rw [← hvalue]
  cases value with
  | none =>
    cases hsession
    rfl
  | some payload =>
    rw [Option.elim] at hsession
    rw [Option.bind_some, sessionOf?]
    cases hpayload : ofPayload payload with
    | error error =>
      rw [hpayload] at hsession
      cases hsession
    | ok found =>
      rw [hpayload] at hsession
      cases hsession
      rfl

theorem contents_of_load {error : SessionStoreError}
    (h : (load server token).runFrom state = (.error error, after)) :
    clean.contents after = clean.contents state := by
  have hafter := state_load server token state
  rw [h] at hafter
  dsimp only at hafter
  subst hafter
  rcases hget : (server.get (key token)).runFrom state with ⟨reason | (_ | payload), mid⟩
  · exact clean.get_error hget
  · rw [runFrom_load hget] at h
    cases h
  · exact (clean.get_ok hget).2.resolve_right fun hnone => by cases hnone.1

def failsCleanly (ttl : UInt64) :
    (store server ttl).FailsCleanly γ where
  contents := clean.contents
  forget token := clean.forget (key token)
  session? held token := (clean.value? held (key token)).bind sessionOf?
  forget_forget token held := clean.forget_forget (key token) held
  session?_forget token other held := by
    rw [clean.value?_forget]
    by_cases h : other = token
    · subst h
      rw [if_pos rfl, if_pos rfl]
      rfl
    · rw [if_neg h, if_neg fun he => h (key_inj he)]
  load_ok h := session_of_load clean h
  load_error h := contents_of_load clean h
  save_error h := by
    obtain ⟨_, hset⟩ := Attempt.runFrom_mapError_eq_error h
    exact clean.set_error hset
  remove_ok h := clean.delete_ok (Attempt.runFrom_mapError_eq_ok.1 h)
  remove_error h := by
    obtain ⟨_, hdelete⟩ := Attempt.runFrom_mapError_eq_error h
    exact clean.delete_error hdelete

end KeyValueSessions

namespace ExpiringMap

theorem delete_delete (map : ExpiringMap) (key : String) :
    (map.delete key).delete key = map.delete key := by
  unfold delete
  rw [Keyed.erase_erase]

theorem get?_delete (map : ExpiringMap) (key other : String) :
    (map.delete key).get? other = if other = key then none else map.get? other := by
  unfold get? delete
  rw [Keyed.get?_erase]
  by_cases h : other = key
  · rw [if_pos h, if_pos h]
  · rw [if_neg h, if_neg h]

def failsCleanly : server.FailsCleanly ExpiringMap where
  contents := id
  forget key map := map.delete key
  value? := get?
  forget_forget key map := delete_delete map key
  value?_forget key other map := get?_delete map key other
  get_ok := by
    intro key state value after h
    cases h
    exact ⟨rfl, .inl rfl⟩
  get_error := by
    intro key state error after h
    cases h
  set_error := by
    intro key seconds value state error after h
    by_cases hzero : seconds = 0
    · simp only [server, if_pos hzero] at h
      cases h
      rfl
    · simp only [server, if_neg hzero] at h
      cases h
  delete_ok := by
    intro key state after h
    cases h
    rfl
  delete_error := by
    intro key state error after h
    cases h

end ExpiringMap

end Gatehouse
