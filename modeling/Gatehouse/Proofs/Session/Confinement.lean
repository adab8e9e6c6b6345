import Gatehouse.Proofs.Session.Interchange
import Gatehouse.Session.Faults

set_option autoImplicit false

/-!
# Calls about other tokens

A call about one token leaves alone what is kept under every other one. Here nothing is asked about
the outcome: a call that fails may have been carried out or not, and leaves the other tokens alone
in both cases. What may go on the way is what has expired.
-/

namespace Gatehouse

namespace TimedView

variable {σ κ α : Type} {view : TimedView σ κ α} {state after later : σ} {key other : κ}

variable (view) in
structure PassesAt (key : κ) (state after : σ) : Prop where
  now_le : view.now state ≤ view.now after
  lasts : Kept.Lasts (view.now after) (view.kept? state key) (view.kept? after key)

theorem PassesAt.refl (key : κ) (state : σ) : view.PassesAt key state state :=
  ⟨Nat.le_refl _, .refl _ _⟩

theorem PassesAt.trans (h : view.PassesAt key state after) (h' : view.PassesAt key after later) :
    view.PassesAt key state later :=
  ⟨Nat.le_trans h.now_le h'.now_le, (h.lasts.mono h'.now_le).trans h'.lasts⟩

theorem Steady.passesAt (h : view.Steady state after) (key : κ) :
    view.PassesAt key state after := by
  refine ⟨Nat.le_of_eq h.now_eq.symm, ?_⟩
  rw [h.now_eq]
  exact h.spares key

theorem Sets.passesAt {kept : Option (Kept α)} (h : view.Sets key kept state after)
    (hne : other ≠ key) : view.PassesAt other state after := by
  refine ⟨Nat.le_of_eq h.now_eq.symm, ?_⟩
  rw [h.now_eq]
  exact h.spares other hne

theorem PassesAt.live?_set (h : view.PassesAt key state after) (clock : view.Clock) {time : Nat}
    (hle : view.now after ≤ time) :
    view.live? (clock.set time after) key = view.live? (clock.set time state) key := by
  rw [(clock.passes hle).live?_eq, (clock.passes (Nat.le_trans h.now_le hle)).live?_eq,
    clock.now_set, clock.now_set]
  exact h.lasts.live?_eq hle

end TimedView

/-- What loading a token answers when it is done at a given time. -/
def SessionStore.answerAt {σ : Type} (store : SessionStore σ) (setClock : Nat → σ → σ) (time : Nat)
    (token : SessionToken) (state : σ) : SessionAnswer :=
  ((store.load token).runFrom (setClock time state)).1

/-- Every call leaves alone what is kept under other tokens, whatever it comes to. -/
structure SessionStore.Confined {σ α : Type} (store : SessionStore σ)
    (view : TimedView σ SessionToken α) : Prop where
  load {token other : SessionToken} (hne : other ≠ token) (state : σ) :
    view.PassesAt other state ((store.load token).runFrom state).2
  save {token other : SessionToken} (hne : other ≠ token) (session : Session) (state : σ) :
    view.PassesAt other state ((store.save token session).runFrom state).2
  remove {token other : SessionToken} (hne : other ≠ token) (state : σ) :
    view.PassesAt other state ((store.remove token).runFrom state).2

namespace MemorySessions

theorem confined (ttl : UInt64) : (store ttl).Confined view where
  load {_ other} _ state := (steady_load state _).passesAt other
  save {token _} hne session state :=
    ((steady_purge state).sets (sets_put _ token ⟨session, expiry ttl state.now⟩)).passesAt hne
  remove hne state := (sets_drop state _).passesAt hne

theorem answerAt_eq (ttl : UInt64) {token : SessionToken} {before after : MemorySessions}
    (h : view.PassesAt token before after) {time : Nat} (hle : after.now ≤ time) :
    (store ttl).answerAt clock.set time token after =
      (store ttl).answerAt clock.set time token before := by
  have hlive := h.live?_set clock hle
  rw [live?_load, live?_load] at hlive
  exact congrArg Except.ok (Option.map_injective (Option.some_injective Session) hlive)

end MemorySessions

namespace Faulty

variable {σ α β : Type}

/-- What is kept does not depend on the faults. -/
def view (inner : TimedView σ SessionToken α) : TimedView (Faulty σ) SessionToken α where
  now state := inner.now state.contents
  kept? state := inner.kept? state.contents

theorem runFrom_attempt (fault : SessionFaults → Option SessionStoreError)
    (step : Attempt SessionStoreError σ β) (state : Faulty σ) :
    (attempt fault step).runFrom state =
      match fault state.faults with
      | some error => (.error error, state)
      | none =>
        ((step.runFrom state.contents).1, state.withContents (step.runFrom state.contents).2) := by
  rw [attempt, Attempt.runFrom_bind, Attempt.runFrom_get]
  dsimp only
  cases fault state.faults <;> rfl

theorem passesAt_attempt {inner : TimedView σ SessionToken α} {token : SessionToken}
    {step : Attempt SessionStoreError σ β} {state : Faulty σ}
    (h : inner.PassesAt token state.contents (step.runFrom state.contents).2)
    (fault : SessionFaults → Option SessionStoreError) :
    (view inner).PassesAt token state ((attempt fault step).runFrom state).2 := by
  rw [runFrom_attempt]
  cases fault state.faults with
  | some error => exact .refl token state
  | none => exact ⟨h.now_le, h.lasts⟩

end Faulty

theorem SessionStore.Confined.withFaults {σ α : Type} {store : SessionStore σ}
    {view : TimedView σ SessionToken α} (confined : store.Confined view) :
    store.withFaults.Confined (Faulty.view view) where
  load hne state := Faulty.passesAt_attempt (confined.load hne state.contents) _
  save hne session state := Faulty.passesAt_attempt (confined.save hne session state.contents) _
  remove hne state := Faulty.passesAt_attempt (confined.remove hne state.contents) _

/-- Every command leaves alone what is kept under other keys, also when it fails. -/
structure KeyValueServer.Confined {κ : Type} (server : KeyValueServer κ)
    (bytes : TimedView κ String (List UInt8)) : Prop where
  get {key other : String} (hne : other ≠ key) (state : κ) :
    bytes.PassesAt other state ((server.get key).runFrom state).2
  setExpiring {key other : String} (hne : other ≠ key) (seconds : UInt64) (value : List UInt8)
    (state : κ) :
    bytes.PassesAt other state ((server.setExpiring key seconds value).runFrom state).2
  delete {key other : String} (hne : other ≠ key) (state : κ) :
    bytes.PassesAt other state ((server.delete key).runFrom state).2

namespace KeyValueSessions

variable {κ : Type} {server : KeyValueServer κ} {bytes : TimedView κ String (List UInt8)}

def rawView (bytes : TimedView κ String (List UInt8)) : TimedView κ SessionToken (List UInt8) where
  now := bytes.now
  kept? state token := bytes.kept? state (key token)

theorem state_load (server : KeyValueServer κ) (token : SessionToken) (state : κ) :
    ((load server token).runFrom state).2 = ((server.get (key token)).runFrom state).2 := by
  rw [load, Attempt.runFrom_bind, Attempt.runFrom_mapError]
  rcases (server.get (key token)).runFrom state with ⟨reason | (_ | payload), after⟩
  · rfl
  · rfl
  · simp only [Except.mapError]
    cases ofPayload payload <;> rfl

theorem confined (h : server.Confined bytes) (ttl : UInt64) :
    (store server ttl).Confined (rawView bytes) where
  load {token _} hne state := by
    have hpasses := h.get (fun he => hne (key_inj he)) state
    rw [← state_load server token state] at hpasses
    exact ⟨hpasses.now_le, hpasses.lasts⟩
  save {token _} hne session state := by
    have hpasses := h.setExpiring (fun he => hne (key_inj he)) ttl
      (Text.utf8 session.toStored.toList) state
    simp only [store, Attempt.runFrom_mapError]
    exact ⟨hpasses.now_le, hpasses.lasts⟩
  remove {token _} hne state := by
    have hpasses := h.delete (fun he => hne (key_inj he)) state
    simp only [store, Attempt.runFrom_mapError]
    exact ⟨hpasses.now_le, hpasses.lasts⟩

theorem answerAt_eq (law : server.Expiring) (clock : law.toTimedView.Clock) (ttl : UInt64)
    {token : SessionToken} {before after : κ}
    (h : (rawView law.toTimedView).PassesAt token before after) {time : Nat}
    (hle : law.now after ≤ time)
    (hbefore : ((server.get (key token)).runFrom (clock.set time before)).1.isOk = true)
    (hafter : ((server.get (key token)).runFrom (clock.set time after)).1.isOk = true) :
    (store server ttl).answerAt clock.set time token after =
      (store server ttl).answerAt clock.set time token before := by
  have hpasses : law.toTimedView.PassesAt (key token) before after := ⟨h.now_le, h.lasts⟩
  rcases hget : (server.get (key token)).runFrom (clock.set time before) with ⟨_ | value, read⟩
  · rw [hget] at hbefore
    cases hbefore
  rcases hget' : (server.get (key token)).runFrom (clock.set time after) with ⟨_ | value', read'⟩
  · rw [hget'] at hafter
    cases hafter
  have hvalue : value' = value := by
    rw [← (law.get_ok hget).1, ← (law.get_ok hget').1]
    exact hpasses.live?_set clock hle
  simp only [SessionStore.answerAt, store, runFrom_load hget, runFrom_load hget', hvalue]

end KeyValueSessions

theorem ExpiringMap.confined : server.Confined view where
  get {_ other} _ state := .refl other state
  setExpiring {key other} hne seconds value state := by
    by_cases hzero : seconds = 0
    · simp only [server, if_pos hzero]
      exact .refl other state
    · simp only [server, if_neg hzero]
      exact (sets_set state key seconds value).passesAt hne
  delete {key _} hne state := (sets_delete state key).passesAt hne

end Gatehouse
