import Gatehouse.Proofs.Http.Continuity
import Gatehouse.Proofs.Session.Failures

set_option autoImplicit false

/-!
# Failures of the session layer

Where a call of the session layer fails, the client is told nothing, and nobody gains anything: at
most the session that was presented is gone. A session that moves is removed under its old token
before it is saved under the new one, so a failure in between signs nobody in.
-/

namespace Gatehouse.SessionLayer

variable {σ β γ : Type} {layer : SessionLayer σ}

/-- Where a request fails in its session layer. -/
inductive Failure where
  /-- Before the handler, when a session is loaded or a corrupt one removed. -/
  | loading (error : SessionStoreError)
  /-- After the handler, when a session is removed or saved. -/
  | writing (error : SessionStoreError)

def failure? (layer : SessionLayer σ) (handler : Handler (Visit β)) (request : Request)
    (fresh : SessionToken) (server : Server σ β) : Option Failure :=
  match (layer.start request).runFrom server.sessions with
  | (.error error, _) => some (.loading error)
  | (.ok stored, loaded) =>
    let visit := (handler.run request ⟨.new (given stored), server.backing⟩).2
    match (layer.writeBack stored fresh visit.handle).runFrom loaded with
    | (.error error, _) => some (.writing error)
    | (.ok _, _) => none

variable {handler : Handler (Visit β)} {request : Request} {fresh : SessionToken}
  {server : Server σ β} {failure : Failure}

theorem failure?_eq_none_iff :
    layer.failure? handler request fresh server = none ↔
      Nonempty (layer.Round handler request fresh server) := by
  constructor
  · intro h
    rw [failure?] at h
    rcases hstart : (layer.start request).runFrom server.sessions with ⟨error | stored, loaded⟩
    · rw [hstart] at h
      cases h
    · rw [hstart] at h
      dsimp only at h
      rcases hwrite : (layer.writeBack stored fresh
          (handler.run request ⟨.new (given stored), server.backing⟩).2.handle).runFrom loaded with
        ⟨error | change, written⟩
      · rw [hwrite] at h
        cases h
      · exact ⟨⟨stored, loaded, change, written, hstart, hwrite⟩⟩
  · rintro ⟨round⟩
    rw [failure?, round.starts]
    dsimp only
    rw [round.writes]

variable {state after : σ} {error : SessionStoreError}
  {stored : Option StoredSession} {handle : SessionHandle}

theorem contents_of_start_error (clean : layer.store.FailsCleanly γ)
    (h : (layer.start request).runFrom state = (.error error, after)) :
    clean.contents after = clean.contents state := by
  obtain ⟨token, -, hload | ⟨reason, mid, hload, hremove⟩⟩ := start_error h
  · exact clean.load_error hload
  · exact (clean.remove_error hremove).trans (clean.load_error hload)

theorem loses_of_start (clean : layer.store.FailsCleanly γ)
    (h : (layer.start request).runFrom state = (.ok stored, after)) :
    clean.Loses (layer.cookie.token? request) (clean.contents state) (clean.contents after) := by
  have hloads := start_ok h
  generalize layer.cookie.token? request = presented at hloads ⊢
  cases hloads with
  | unpresented => exact .inl rfl
  | @unknown token _ loads =>
    exact (clean.load_ok loads).2.imp_right fun hforget => ⟨token, rfl, hforget⟩
  | @found token _ _ loads =>
    exact (clean.load_ok loads).2.imp_right fun hforget => ⟨token, rfl, hforget⟩
  | @discarded token _ _ _ loads removes =>
    refine .inr ⟨token, rfl, ?_⟩
    rw [clean.remove_ok removes, clean.load_error loads]

theorem loses_of_writeBack_error (clean : layer.store.FailsCleanly γ)
    {presented : Option SessionToken} (hstored : ∀ found, stored = some found →
      presented = some found.1)
    (h : (layer.writeBack stored fresh handle).runFrom state = (.error error, after)) :
    clean.Loses presented (clean.contents state) (clean.contents after) := by
  have hcalls := layer.writesBack stored fresh handle
  generalize layer.writeBack stored fresh handle = attempt at hcalls h
  cases hcalls with
  | nothing => cases h
  | begins session => exact .inl (clean.save_error (Attempt.runFrom_bind_pure_eq_error h))
  | ends found => exact .inl (clean.remove_error (Attempt.runFrom_bind_pure_eq_error h))
  | moves found session =>
    rcases Attempt.runFrom_bind_eq_error.1 h with hremove | ⟨_, mid, hremove, hrest⟩
    · exact .inl (clean.remove_error hremove)
    · have hsave := clean.save_error (Attempt.runFrom_bind_pure_eq_error hrest)
      exact .inr ⟨found.1, hstored found rfl, hsave.trans (clean.remove_ok hremove)⟩
  | keeps found session => exact .inl (clean.save_error (Attempt.runFrom_bind_pure_eq_error h))

structure FailsClosed (layer : SessionLayer σ) (clean : layer.store.FailsCleanly γ)
    (handler : Handler (Visit β)) (request : Request) (fresh : SessionToken) (server : Server σ β)
    (failure : Failure) : Prop where
  answer : (layer.serve handler request fresh server).1 = .serverError
  noCookie : (layer.serve handler request fresh server).1.setCookies = []
  /-- The session that was presented may be gone. All else is held as before. -/
  loses : clean.Loses (layer.cookie.token? request) (clean.contents server.sessions)
    (clean.contents (layer.serve handler request fresh server).2.sessions)
  /-- Whoever has a session afterwards had the same one before. -/
  gainsNothing : ∀ token session,
    clean.session? (clean.contents (layer.serve handler request fresh server).2.sessions) token =
        some session →
      clean.session? (clean.contents server.sessions) token = some session
  /-- A failure on the way to the handler is the same for every handler, and costs nothing. -/
  notRun : ∀ error, failure = .loading error →
    (∀ other : Handler (Visit β),
      layer.serve other request fresh server = layer.serve handler request fresh server) ∧
    (layer.serve handler request fresh server).2.backing = server.backing ∧
    clean.contents (layer.serve handler request fresh server).2.sessions =
      clean.contents server.sessions

/-- Whichever call of the session layer fails, the request fails closed. -/
theorem failsClosed (layer : SessionLayer σ) (clean : layer.store.FailsCleanly γ)
    (handler : Handler (Visit β)) (request : Request) (fresh : SessionToken) (server : Server σ β)
    (failure : Failure) (h : layer.failure? handler request fresh server = some failure) :
    layer.FailsClosed clean handler request fresh server failure := by
  rw [failure?] at h
  rcases hstart : (layer.start request).runFrom server.sessions with ⟨error | stored, loaded⟩
  · have hcontents := contents_of_start_error clean hstart
    have hserve (any : Handler (Visit β)) :
        layer.serve any request fresh server = (.serverError, ⟨loaded, server.backing⟩) := by
      rw [serve, hstart]
      rfl
    constructor
    · rw [hserve]
    · rw [hserve]
      rfl
    · rw [hserve]
      exact .inl hcontents
    · intro token session hsession
      rw [hserve, hcontents] at hsession
      exact hsession
    · intro _ _
      rw [hserve]
      exact ⟨hserve, rfl, hcontents⟩
  · rw [hstart] at h
    dsimp only at h
    rcases hwrite : (layer.writeBack stored fresh
        (handler.run request ⟨.new (given stored), server.backing⟩).2.handle).runFrom loaded with
      ⟨error | change, written⟩
    · rw [hwrite] at h
      cases h
      have hserve : layer.serve handler request fresh server = (.serverError, ⟨written,
          (handler.run request ⟨.new (given stored), server.backing⟩).2.backing⟩) := by
        rw [serve, hstart]
        simp only [finish, hwrite]
        rfl
      have hloses : clean.Loses (layer.cookie.token? request) (clean.contents server.sessions)
          (clean.contents written) :=
        (loses_of_start clean hstart).trans (loses_of_writeBack_error clean
          (fun found hfound => presented_of_start (hfound ▸ hstart)) hwrite)
      constructor
      · rw [hserve]
      · rw [hserve]
        rfl
      · rw [hserve]
        exact hloses
      · intro token session hsession
        rw [hserve] at hsession
        exact hloses.session?_before hsession
      · intro _ hloading
        cases hloading
    · rw [hwrite] at h
      cases h

def signIn : Handler (Visit Unit) := fun _ => do
  Visit.update (Session.authenticate ⟨"al"⟩)
  pure { status := 200 }

theorem failsClosed_samples :
    let memory : SessionLayer (Faulty MemorySessions) :=
      ⟨(MemorySessions.store 60).withFaults, .sample⟩
    let sessions := MemorySessions.empty.save 60 ⟨1⟩ { flashes := [⟨.info, "hello"⟩] }
    let unsaved : Server (Faulty MemorySessions) Unit :=
      ⟨⟨sessions, { save := some (.database "down") }⟩, ()⟩
    let outside : SessionLayer (Faulty ExpiringMap) := ⟨serverLayer.store.withFaults, .sample⟩
    let unremoved : Server (Faulty ExpiringMap) Unit :=
      ⟨⟨corrupted, { remove := some (.database "down") }⟩, ()⟩
    (memory.failure? signIn visitRequest ⟨2⟩ unsaved = some (.writing (.database "down")) ∧
      memory.FailsClosed (MemorySessions.failsCleanly 60).withFaults signIn visitRequest ⟨2⟩ unsaved
        (.writing (.database "down"))) ∧
    outside.failure? signIn visitRequest ⟨2⟩ unremoved = some (.loading (.database "down")) ∧
      outside.FailsClosed (KeyValueSessions.failsCleanly ExpiringMap.failsCleanly 60).withFaults
        signIn visitRequest ⟨2⟩ unremoved (.loading (.database "down")) := by
  intro memory sessions unsaved outside unremoved
  have htoken : SessionCookie.sample.token? visitRequest = some ⟨1⟩ :=
    SessionCookie.token?_sample rfl
  have hwriting : memory.failure? signIn visitRequest ⟨2⟩ unsaved =
      some (.writing (.database "down")) := by
    have hstart : (memory.start visitRequest).runFrom unsaved.sessions =
        (.ok (some (⟨1⟩, { flashes := [⟨.info, "hello"⟩] })), unsaved.sessions) := by
      rw [start, show memory.cookie.token? visitRequest = some ⟨1⟩ from htoken]
      rfl
    rw [failure?, hstart]
    rfl
  have hloading : outside.failure? signIn visitRequest ⟨2⟩ unremoved =
      some (.loading (.database "down")) := by
    have hload : (outside.store.load ⟨1⟩).runFrom unremoved.sessions =
        (.error (.corrupt "the payload is not a session"), unremoved.sessions) := by
      simp only [outside, unremoved, SessionStore.withFaults, Faulty.runFrom_attempt,
        load_corrupted]
      rfl
    have hstart : (outside.start visitRequest).runFrom unremoved.sessions =
        (.error (.database "down"), unremoved.sessions) := by
      rw [start, show outside.cookie.token? visitRequest = some ⟨1⟩ from htoken]
      dsimp only
      rw [load, Attempt.runFrom_bind, Attempt.runFrom_outcome, hload]
      rfl
    rw [failure?, hstart]
  exact ⟨⟨hwriting, failsClosed _ _ _ _ _ _ _ hwriting⟩, hloading,
    failsClosed _ _ _ _ _ _ _ hloading⟩

end Gatehouse.SessionLayer
