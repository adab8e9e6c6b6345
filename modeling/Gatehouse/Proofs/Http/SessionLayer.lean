import Gatehouse.Http.SessionLayer
import Gatehouse.Proofs.Attempt
import Gatehouse.Proofs.Session.Handle
import Gatehouse.Proofs.Session.Keeping

set_option autoImplicit false

/-!
# What the session layer does to a store

All that either half of a request can do, case by case, when the calls to the store succeed.
Everything about sessions over several requests follows from these two lists of cases.
-/

namespace Gatehouse

namespace SessionKeeping

variable {σ : Type} {store : SessionStore σ} (keeping : SessionKeeping store)

inductive Started (state : σ) :
    Option SessionToken → Option StoredSession → σ → Prop
  | unpresented : Started state none none state
  | unknown {token : SessionToken} {after : σ} (live : keeping.live? state token = none)
      (steady : keeping.Steady state after) : Started state (some token) none after
  | found {token : SessionToken} {session : Session} {after : σ}
      (live : keeping.live? state token = some (some session))
      (steady : keeping.Steady state after) :
      Started state (some token) (some (token, session)) after
  | discarded {token : SessionToken} {after : σ} (live : keeping.live? state token = some none)
      (sets : keeping.Sets token none state after) : Started state (some token) none after

/-- The ways in which the second half of a request can end. -/
inductive WrittenBack (state : σ) (fresh : SessionToken) (handle : SessionHandle) :
    Option StoredSession → CookieChange → σ → Prop
  | unchanged {stored : Option StoredSession} (modified : handle.modified = false) :
      WrittenBack state fresh handle stored .none state
  | unneeded (modified : handle.modified = true) (empty : handle.session = .new) :
      WrittenBack state fresh handle none .none state
  | begun {after : σ} (modified : handle.modified = true) (nonempty : handle.session ≠ .new)
      (sets : keeping.Sets fresh (some ⟨some handle.session, keeping.expiry (keeping.now state)⟩)
        state after) : WrittenBack state fresh handle none (.issue fresh) after
  | ended {token : SessionToken} {session : Session} {after : σ}
      (modified : handle.modified = true) (empty : handle.session = .new)
      (sets : keeping.Sets token none state after) :
      WrittenBack state fresh handle (some (token, session)) .expire after
  | moved {token : SessionToken} {session : Session} {mid after : σ}
      (modified : handle.modified = true) (wasAnonymous : session.isAuthenticated = false)
      (isAuthenticated : handle.session.isAuthenticated = true)
      (removes : keeping.Sets token none state mid)
      (sets : keeping.Sets fresh (some ⟨some handle.session, keeping.expiry (keeping.now mid)⟩)
        mid after) : WrittenBack state fresh handle (some (token, session)) (.issue fresh) after
  | kept {token : SessionToken} {session : Session} {after : σ}
      (modified : handle.modified = true) (nonempty : handle.session ≠ .new)
      (noRise : session.isAuthenticated = false → handle.session.isAuthenticated = false)
      (sets : keeping.Sets token (some ⟨some handle.session, keeping.expiry (keeping.now state)⟩)
        state after) : WrittenBack state fresh handle (some (token, session)) .none after

variable {keeping} {state after : σ} {presented : Option SessionToken}
  {stored : Option StoredSession}

theorem Started.now_eq (h : keeping.Started state presented stored after) :
    keeping.now after = keeping.now state := by
  cases h with
  | unpresented => rfl
  | unknown live steady => exact steady.now_eq
  | found live steady => exact steady.now_eq
  | discarded live sets => exact sets.now_eq

theorem Started.live?_none {token : SessionToken}
    (h : keeping.Started state (some token) none after) : keeping.live? after token = none := by
  cases h with
  | unknown live steady => exact (steady.live?_eq token).trans live
  | discarded live sets => exact sets.live?_self_none

variable (keeping) in
/-- Every session that is there and can be read has a property. -/
def Holds (p : SessionToken → Session → Prop) (state : σ) : Prop :=
  ∀ token session, keeping.live? state token = some (some session) → p token session

variable {p : SessionToken → Session → Prop} {mid later : σ} {token fresh : SessionToken}
  {handle : SessionHandle} {change : CookieChange}

theorem Holds.of_steady (h : keeping.Holds p state) (hsteady : keeping.Steady state after) :
    keeping.Holds p after := by
  intro token session hlive
  rw [hsteady.live?_eq] at hlive
  exact h token session hlive

theorem Holds.of_passes (h : keeping.Holds p state) (hpasses : keeping.Passes state after) :
    keeping.Holds p after :=
  fun token session hlive => h token session (hpasses.live?_before hlive)

theorem Holds.of_removed (h : keeping.Holds p state) (hsets : keeping.Sets token none state after) :
    keeping.Holds p after := by
  intro other session hlive
  by_cases heq : other = token
  · subst heq
    rw [hsets.live?_self_none] at hlive
    cases hlive
  · rw [hsets.live?_eq heq] at hlive
    exact h other session hlive

theorem Holds.of_saved {session : Session} {expiresAt : Nat} (h : keeping.Holds p state)
    (hsets : keeping.Sets token (some ⟨some session, expiresAt⟩) state after)
    (hsession : p token session) : keeping.Holds p after := by
  intro other found hlive
  by_cases heq : other = token
  · subst heq
    rw [Option.some.inj (hsets.eq_of_live? hlive)]
    exact hsession
  · rw [hsets.live?_eq heq] at hlive
    exact h other found hlive

theorem Holds.of_started (h : keeping.Holds p state)
    (hstarted : keeping.Started state presented stored after) : keeping.Holds p after := by
  cases hstarted with
  | unpresented => exact h
  | unknown live steady => exact h.of_steady steady
  | found live steady => exact h.of_steady steady
  | discarded live sets => exact h.of_removed sets

theorem Holds.loaded {session : Session} (h : keeping.Holds p state)
    (hstarted : keeping.Started state presented (some (token, session)) after) :
    presented = some token ∧ p token session := by
  cases hstarted with
  | found live steady => exact ⟨rfl, h token session live⟩

theorem Holds.of_writtenBack (h : keeping.Holds p state)
    (hwritten : keeping.WrittenBack state fresh handle stored change after)
    (hfresh : p fresh handle.session)
    (hkept : ∀ token session, stored = some (token, session) → handle.modified = true →
      (session.isAuthenticated = false → handle.session.isAuthenticated = false) →
        p token handle.session) : keeping.Holds p after := by
  cases hwritten with
  | unchanged modified => exact h
  | unneeded modified empty => exact h
  | begun modified nonempty sets => exact h.of_saved sets hfresh
  | ended modified empty sets => exact h.of_removed sets
  | moved modified wasAnonymous isAuthenticated removes sets =>
    exact (h.of_removed removes).of_saved sets hfresh
  | @kept token session _ modified nonempty noRise sets =>
    exact h.of_saved sets (hkept token session rfl modified noRise)

end SessionKeeping

namespace SessionLayer

variable {σ β : Type} {layer : SessionLayer σ} {state after : σ} {fresh : SessionToken}
  {handle : SessionHandle} {stored : Option StoredSession} {change : CookieChange}

/-- The calls by which a session is loaded, as they come out when none of them fails the request. -/
inductive Loads (layer : SessionLayer σ) (state : σ) :
    Option SessionToken → Option StoredSession → σ → Prop
  | unpresented : Loads layer state none none state
  | unknown {token : SessionToken} {after : σ}
      (loads : (layer.store.load token).runFrom state = (.ok none, after)) :
      Loads layer state (some token) none after
  | found {token : SessionToken} {session : Session} {after : σ}
      (loads : (layer.store.load token).runFrom state = (.ok (some session), after)) :
      Loads layer state (some token) (some (token, session)) after
  | discarded {token : SessionToken} {reason : String} {mid after : σ}
      (loads : (layer.store.load token).runFrom state = (.error (.corrupt reason), mid))
      (removes : (layer.store.remove token).runFrom mid = (.ok (), after)) :
      Loads layer state (some token) none after

theorem start_ok {request : Request}
    (h : (layer.start request).runFrom state = (.ok stored, after)) :
    layer.Loads state (layer.cookie.token? request) stored after := by
  rw [start] at h
  cases hpresented : layer.cookie.token? request with
  | none =>
    rw [hpresented] at h
    cases h
    exact .unpresented
  | some token =>
    rw [hpresented] at h
    dsimp only at h
    rw [load, Attempt.runFrom_bind, Attempt.runFrom_outcome] at h
    rcases hload : (layer.store.load token).runFrom state with
      ⟨(reason | reason) | (_ | session), mid⟩
    · rw [hload] at h
      cases h
    · rw [hload] at h
      obtain ⟨_, _, hremove, hpure⟩ := Attempt.runFrom_bind_eq_ok.1 h
      cases hpure
      exact .discarded hload hremove
    · rw [hload] at h
      cases h
      exact .unknown hload
    · rw [hload] at h
      cases h
      exact .found hload

theorem start_error {request : Request} {error : SessionStoreError}
    (h : (layer.start request).runFrom state = (.error error, after)) :
    ∃ token, layer.cookie.token? request = some token ∧
      ((layer.store.load token).runFrom state = (.error error, after) ∨
        ∃ reason mid, (layer.store.load token).runFrom state = (.error (.corrupt reason), mid) ∧
          (layer.store.remove token).runFrom mid = (.error error, after)) := by
  rw [start] at h
  cases hpresented : layer.cookie.token? request with
  | none =>
    rw [hpresented] at h
    cases h
  | some token =>
    rw [hpresented] at h
    refine ⟨token, rfl, ?_⟩
    dsimp only at h
    rw [load, Attempt.runFrom_bind, Attempt.runFrom_outcome] at h
    rcases hload : (layer.store.load token).runFrom state with ⟨(reason | reason) | session, mid⟩
    · rw [hload] at h
      cases h
      exact .inl rfl
    · rw [hload] at h
      exact .inr ⟨reason, mid, rfl, Attempt.runFrom_bind_pure_eq_error h⟩
    · rw [hload] at h
      cases h

theorem presented_of_start {request : Request} {found : StoredSession}
    (h : (layer.start request).runFrom state = (.ok (some found), after)) :
    layer.cookie.token? request = some found.1 := by
  have hloads := start_ok h
  generalize layer.cookie.token? request = presented at hloads ⊢
  cases hloads
  rfl

theorem started (keeping : SessionKeeping layer.store) {request : Request}
    (h : (layer.start request).runFrom state = (.ok stored, after)) :
    keeping.Started state (layer.cookie.token? request) stored after := by
  have hloads := start_ok h
  generalize layer.cookie.token? request = presented at hloads ⊢
  cases hloads with
  | unpresented => exact .unpresented
  | unknown loads =>
    obtain ⟨hlive, hsteady⟩ := keeping.load_ok loads
    exact .unknown hlive hsteady
  | found loads =>
    obtain ⟨hlive, hsteady⟩ := keeping.load_ok loads
    exact .found hlive hsteady
  | discarded loads removes =>
    obtain ⟨hlive, hsteady⟩ := keeping.load_corrupt loads
    exact .discarded hlive (hsteady.sets (keeping.remove_ok removes))

theorem saveNew_ok (keeping : SessionKeeping layer.store) (hmodified : handle.modified = true)
    (h : (layer.saveNew fresh handle.session).runFrom state = (.ok change, after)) :
    keeping.WrittenBack state fresh handle none change after := by
  rw [saveNew] at h
  by_cases hempty : handle.session.isEmpty = true
  · rw [if_pos hempty] at h
    cases h
    exact .unneeded hmodified ((Session.isEmpty_iff _).1 hempty)
  · rw [if_neg hempty] at h
    obtain ⟨_, saved, hsave, hpure⟩ := Attempt.runFrom_bind_eq_ok.1 h
    cases hpure
    exact .begun hmodified (fun he => hempty ((Session.isEmpty_iff _).2 he)) (keeping.save_ok hsave)

theorem saveChanged_ok (keeping : SessionKeeping layer.store) {token : SessionToken}
    {session : Session} (hmodified : handle.modified = true)
    (h : (layer.saveChanged (token, session) fresh handle.session).runFrom state =
      (.ok change, after)) :
    keeping.WrittenBack state fresh handle (some (token, session)) change after := by
  rw [saveChanged] at h
  by_cases hempty : handle.session.isEmpty = true
  · rw [if_pos hempty] at h
    obtain ⟨_, removed, hremove, hpure⟩ := Attempt.runFrom_bind_eq_ok.1 h
    cases hpure
    exact .ended hmodified ((Session.isEmpty_iff _).1 hempty) (keeping.remove_ok hremove)
  · rw [if_neg hempty] at h
    by_cases hrise : (!session.isAuthenticated && handle.session.isAuthenticated) = true
    · rw [if_pos hrise] at h
      obtain ⟨_, mid, hremove, hrest⟩ := Attempt.runFrom_bind_eq_ok.1 h
      obtain ⟨_, saved, hsave, hpure⟩ := Attempt.runFrom_bind_eq_ok.1 hrest
      cases hpure
      rw [Bool.and_eq_true, Bool.not_eq_true'] at hrise
      exact .moved hmodified hrise.1 hrise.2 (keeping.remove_ok hremove) (keeping.save_ok hsave)
    · rw [if_neg hrise] at h
      obtain ⟨_, saved, hsave, hpure⟩ := Attempt.runFrom_bind_eq_ok.1 h
      cases hpure
      have hnonempty : handle.session ≠ .new := fun he => hempty ((Session.isEmpty_iff _).2 he)
      refine .kept hmodified hnonempty ?_ (keeping.save_ok hsave)
      simpa using hrise

theorem writtenBack (keeping : SessionKeeping layer.store)
    (h : (layer.writeBack stored fresh handle).runFrom state = (.ok change, after)) :
    keeping.WrittenBack state fresh handle stored change after := by
  cases hmodified : handle.modified with
  | false =>
    simp only [writeBack, SessionHandle.changed?_eq_none_iff.2 hmodified] at h
    cases h
    exact .unchanged hmodified
  | true =>
    have hchanged := SessionHandle.changed?_eq_some_iff.2 ⟨hmodified, rfl⟩
    rcases stored with _ | ⟨token, session⟩
    · simp only [writeBack, hchanged] at h
      exact saveNew_ok keeping hmodified h
    · simp only [writeBack, hchanged] at h
      exact saveChanged_ok keeping hmodified h

inductive WritesBack (layer : SessionLayer σ) (fresh : SessionToken) :
    Option StoredSession → Attempt SessionStoreError σ CookieChange → Prop
  | nothing {stored : Option StoredSession} : WritesBack layer fresh stored (pure .none)
  | begins (session : Session) : WritesBack layer fresh none do
      layer.store.save fresh session
      pure (.issue fresh)
  | ends (found : StoredSession) : WritesBack layer fresh (some found) do
      layer.store.remove found.1
      pure .expire
  | moves (found : StoredSession) (session : Session) : WritesBack layer fresh (some found) do
      layer.store.remove found.1
      layer.store.save fresh session
      pure (.issue fresh)
  | keeps (found : StoredSession) (session : Session) : WritesBack layer fresh (some found) do
      layer.store.save found.1 session
      pure .none

theorem writesBack (layer : SessionLayer σ) (stored : Option StoredSession) (fresh : SessionToken)
    (handle : SessionHandle) :
    layer.WritesBack fresh stored (layer.writeBack stored fresh handle) := by
  cases hchanged : handle.changed? with
  | none =>
    simp only [writeBack, hchanged]
    exact .nothing
  | some session =>
    cases stored with
    | none =>
      simp only [writeBack, hchanged, saveNew]
      split
      · exact .nothing
      · exact .begins session
    | some found =>
      simp only [writeBack, hchanged, saveChanged]
      split
      · exact .ends found
      · split
        · exact .moves found session
        · exact .keeps found session

/-- A request during which every call to the store succeeds. -/
structure Round (layer : SessionLayer σ) (handler : Handler (Visit β)) (request : Request)
    (fresh : SessionToken) (server : Server σ β) where
  stored : Option StoredSession
  loaded : σ
  change : CookieChange
  written : σ
  starts : (layer.start request).runFrom server.sessions = (.ok stored, loaded)
  writes : (layer.writeBack stored fresh
    (handler.run request ⟨.new (given stored), server.backing⟩).2.handle).runFrom loaded =
      (.ok change, written)

namespace Round

variable {handler : Handler (Visit β)} {request : Request} {server : Server σ β}
  (round : layer.Round handler request fresh server)

/-- What the handler answers, before anything is said about the token. -/
def answer : Response :=
  (handler.run request ⟨.new (given round.stored), server.backing⟩).1

def visit : Visit β :=
  (handler.run request ⟨.new (given round.stored), server.backing⟩).2

def response : Response :=
  layer.settle round.answer (.ok round.change)

def serverAfter : Server σ β :=
  ⟨round.written, round.visit.backing⟩

theorem serve_eq :
    layer.serve handler request fresh server = (round.response, round.serverAfter) := by
  rw [serve, round.starts]
  simp only [finish, round.writes]
  rfl

theorem started (keeping : SessionKeeping layer.store) :
    keeping.Started server.sessions (layer.cookie.token? request) round.stored round.loaded :=
  SessionLayer.started keeping round.starts

theorem writtenBack (keeping : SessionKeeping layer.store) :
    keeping.WrittenBack round.loaded fresh round.visit.handle round.stored round.change
      round.written :=
  SessionLayer.writtenBack keeping round.writes

theorem setCookies_eq (hanswer : round.answer.setCookies = []) :
    round.response.setCookies = layer.cookieHeaders round.change := by
  simp [response, settle, hanswer]

end Round

theorem round_of_serve {handler : Handler (Visit β)} {request : Request} {server next : Server σ β}
    {response : Response} (hserve : layer.serve handler request fresh server = (response, next))
    (hanswer : response ≠ .serverError) :
    ∃ round : layer.Round handler request fresh server,
      round.response = response ∧ round.serverAfter = next := by
  rcases hstart : (layer.start request).runFrom server.sessions with ⟨error | stored, loaded⟩
  · rw [serve, hstart] at hserve
    cases hserve
    exact absurd rfl hanswer
  · rw [serve, hstart] at hserve
    simp only [finish] at hserve
    rcases hwrite : (layer.writeBack stored fresh
        (handler.run request ⟨.new (given stored), server.backing⟩).2.handle).runFrom loaded with
      ⟨error | change, written⟩
    · rw [hwrite] at hserve
      cases hserve
      exact absurd rfl hanswer
    · rw [hwrite] at hserve
      cases hserve
      exact ⟨⟨stored, loaded, change, written, hstart, hwrite⟩, rfl, rfl⟩

end SessionLayer

end Gatehouse
