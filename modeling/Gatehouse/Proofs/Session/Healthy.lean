import Gatehouse.Proofs.Http.SessionLayer
import Gatehouse.Session.Memory

set_option autoImplicit false

/-!
# Sessions without failures

Where the session store always answers, every request comes to its handler, and what the handler
answers is what the client gets.
-/

namespace Gatehouse

variable {σ β : Type}

/-- A store that always answers. A session that it has kept may still be unreadable. -/
structure SessionStore.Healthy (store : SessionStore σ) (Fine : σ → Prop) : Prop where
  load (token : SessionToken) {state : σ} : Fine state →
    ∃ outcome after, (store.load token).runFrom state = (outcome, after) ∧ Fine after ∧
      ∀ reason, outcome ≠ .error (.database reason)
  save (token : SessionToken) (session : Session) {state : σ} : Fine state →
    ∃ after, (store.save token session).runFrom state = (.ok (), after) ∧ Fine after
  remove (token : SessionToken) {state : σ} : Fine state →
    ∃ after, (store.remove token).runFrom state = (.ok (), after) ∧ Fine after

theorem MemorySessions.healthy (ttl : UInt64) : (store ttl).Healthy fun _ => True where
  load token _ _ := ⟨_, _, rfl, trivial, fun _ h => by cases h⟩
  save _ _ _ _ := ⟨_, rfl, trivial⟩
  remove _ _ _ := ⟨_, rfl, trivial⟩

namespace SessionLayer

variable {layer : SessionLayer σ} {Fine : σ → Prop} {state : σ}

theorem start_of_healthy (healthy : layer.store.Healthy Fine) (request : Request)
    (hfine : Fine state) :
    ∃ stored loaded, (layer.start request).runFrom state = (.ok stored, loaded) ∧ Fine loaded := by
  rw [start]
  cases layer.cookie.token? request with
  | none => exact ⟨none, state, rfl, hfine⟩
  | some token =>
    obtain ⟨outcome, after, hload, hafter, hanswers⟩ := healthy.load token hfine
    simp only [load, Attempt.runFrom_bind, Attempt.runFrom_outcome, hload]
    rcases outcome with (reason | reason) | session
    · exact absurd rfl (hanswers reason)
    · obtain ⟨removed, hremove, hfine⟩ := healthy.remove token hafter
      simp only [Attempt.runFrom_bind, hremove]
      exact ⟨none, removed, rfl, hfine⟩
    · exact ⟨_, after, rfl, hafter⟩

theorem saveNew_of_healthy (healthy : layer.store.Healthy Fine) (fresh : SessionToken)
    (session : Session) (hfine : Fine state) :
    ∃ change written, (layer.saveNew fresh session).runFrom state = (.ok change, written) ∧
      Fine written := by
  rw [saveNew]
  split
  · exact ⟨_, _, rfl, hfine⟩
  · obtain ⟨saved, hsave, hsaved⟩ := healthy.save fresh session hfine
    rw [Attempt.runFrom_bind, hsave]
    exact ⟨_, _, rfl, hsaved⟩

theorem saveChanged_of_healthy (healthy : layer.store.Healthy Fine) (stored : StoredSession)
    (fresh : SessionToken) (session : Session) (hfine : Fine state) :
    ∃ change written, (layer.saveChanged stored fresh session).runFrom state =
      (.ok change, written) ∧ Fine written := by
  obtain ⟨removed, hremove, hremoved⟩ := healthy.remove stored.1 hfine
  rw [saveChanged]
  split
  · rw [Attempt.runFrom_bind, hremove]
    exact ⟨_, _, rfl, hremoved⟩
  · split
    · obtain ⟨moved, hmove, hmoved⟩ := healthy.save fresh session hremoved
      rw [Attempt.runFrom_bind, hremove]
      dsimp only
      rw [Attempt.runFrom_bind, hmove]
      exact ⟨_, _, rfl, hmoved⟩
    · obtain ⟨saved, hsave, hsaved⟩ := healthy.save stored.1 session hfine
      rw [Attempt.runFrom_bind, hsave]
      exact ⟨_, _, rfl, hsaved⟩

theorem writeBack_of_healthy (healthy : layer.store.Healthy Fine) (stored : Option StoredSession)
    (fresh : SessionToken) (handle : SessionHandle) (hfine : Fine state) :
    ∃ change written, (layer.writeBack stored fresh handle).runFrom state =
      (.ok change, written) ∧ Fine written := by
  cases hchanged : handle.changed? with
  | none =>
    simp only [writeBack, hchanged]
    exact ⟨_, _, rfl, hfine⟩
  | some session =>
    cases stored with
    | none =>
      simp only [writeBack, hchanged]
      exact saveNew_of_healthy healthy fresh session hfine
    | some stored =>
      simp only [writeBack, hchanged]
      exact saveChanged_of_healthy healthy stored fresh session hfine

theorem round_of_healthy (healthy : layer.store.Healthy Fine) (handler : Handler (Visit β))
    (request : Request) (fresh : SessionToken) (server : Server σ β)
    (hfine : Fine server.sessions) :
    ∃ round : layer.Round handler request fresh server, Fine round.serverAfter.sessions := by
  obtain ⟨stored, loaded, hstart, hloaded⟩ := start_of_healthy healthy request hfine
  obtain ⟨change, written, hwrite, hwritten⟩ := writeBack_of_healthy healthy stored fresh
    (handler.run request ⟨.new (given stored), server.backing⟩).2.handle hloaded
  exact ⟨⟨stored, loaded, change, written, hstart, hwrite⟩, hwritten⟩

end SessionLayer

end Gatehouse
