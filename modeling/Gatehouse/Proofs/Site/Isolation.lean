import Gatehouse.Proofs.Session.Confinement
import Gatehouse.Proofs.Site.Notices
import Gatehouse.Proofs.Site.Registration

set_option autoImplicit false

/-!
# Sessions of other clients

A request concerns the session that it presents and the one that it begins. What is kept under every
other token lasts through it, whichever calls to the store fail, and the answer names no other token
either.
-/

namespace Gatehouse

variable {σ β α : Type}

namespace SessionLayer

variable {layer : SessionLayer σ} {view : TimedView σ SessionToken α} {request : Request}
  {fresh token : SessionToken} {state after before : σ} {stored : Option StoredSession}

theorem preserves_load (confined : layer.store.Confined view) {other : SessionToken}
    (hne : token ≠ other) : (layer.load other).Preserves (view.PassesAt token before) := by
  refine .bind (.outcome fun state h => h.trans (confined.load hne state)) fun outcome => ?_
  rcases outcome with (reason | reason) | session
  · exact .throw _
  · exact .bind (fun state h => h.trans (confined.remove hne state)) fun _ => .pure _
  · exact .pure _

theorem preserves_start (confined : layer.store.Confined view)
    (hpresented : layer.cookie.token? request ≠ some token) :
    (layer.start request).Preserves (view.PassesAt token before) := by
  rw [start]
  cases htoken : layer.cookie.token? request with
  | none => exact .pure _
  | some other =>
    have hne : token ≠ other := fun he => hpresented (by rw [htoken, he])
    exact preserves_load confined hne

theorem preserves_writeBack (confined : layer.store.Confined view)
    (hstored : ∀ found, stored = some found → token ≠ found.1) (hfresh : token ≠ fresh)
    (handle : SessionHandle) :
    (layer.writeBack stored fresh handle).Preserves (view.PassesAt token before) := by
  have hsave {other : SessionToken} (hne : token ≠ other) (session : Session) :
      (layer.store.save other session).Preserves (view.PassesAt token before) :=
    fun state h => h.trans (confined.save hne session state)
  have hremove {other : SessionToken} (hne : token ≠ other) :
      (layer.store.remove other).Preserves (view.PassesAt token before) :=
    fun state h => h.trans (confined.remove hne state)
  have hcalls := layer.writesBack stored fresh handle
  generalize layer.writeBack stored fresh handle = attempt at hcalls ⊢
  cases hcalls with
  | nothing => exact .pure _
  | begins session => exact .bind (hsave hfresh session) fun _ => .pure _
  | ends found => exact .bind (hremove (hstored found rfl)) fun _ => .pure _
  | moves found session =>
    exact .bind (hremove (hstored found rfl)) fun _ => .bind (hsave hfresh session) fun _ => .pure _
  | keeps found session => exact .bind (hsave (hstored found rfl) session) fun _ => .pure _

theorem passesAt_serve (confined : layer.store.Confined view) (handler : Handler (Visit β))
    (server : Server σ β) (hpresented : layer.cookie.token? request ≠ some token)
    (hfresh : token ≠ fresh) :
    view.PassesAt token server.sessions (layer.serve handler request fresh server).2.sessions := by
  have hstart := preserves_start confined hpresented server.sessions (.refl token server.sessions)
  rw [serve]
  rcases hrun : (layer.start request).runFrom server.sessions with ⟨error | stored, loaded⟩
  · rw [hrun] at hstart
    exact hstart
  · rw [hrun] at hstart
    refine preserves_writeBack confined (fun found hfound he => hpresented ?_) hfresh _ loaded
      hstart
    rw [he]
    exact presented_of_start (hfound ▸ hrun)

theorem change_of_writeBack {handle : SessionHandle} {change : CookieChange}
    (h : (layer.writeBack stored fresh handle).runFrom state = (.ok change, after)) :
    change = .none ∨ change = .issue fresh ∨ change = .expire := by
  have hcalls := layer.writesBack stored fresh handle
  generalize layer.writeBack stored fresh handle = attempt at hcalls h
  cases hcalls with
  | nothing =>
    cases h
    exact .inl rfl
  | begins session =>
    obtain ⟨_, _, -, h⟩ := Attempt.runFrom_bind_eq_ok.1 h
    cases h
    exact .inr (.inl rfl)
  | ends found =>
    obtain ⟨_, _, -, h⟩ := Attempt.runFrom_bind_eq_ok.1 h
    cases h
    exact .inr (.inr rfl)
  | moves found session =>
    obtain ⟨_, _, -, h⟩ := Attempt.runFrom_bind_eq_ok.1 h
    obtain ⟨_, _, -, h⟩ := Attempt.runFrom_bind_eq_ok.1 h
    cases h
    exact .inr (.inl rfl)
  | keeps found session =>
    obtain ⟨_, _, -, h⟩ := Attempt.runFrom_bind_eq_ok.1 h
    cases h
    exact .inl rfl

theorem setCookies_serve (handler : Handler (Visit β)) (server : Server σ β)
    (hanswer : ∀ visit, (handler.run request visit).1.setCookies = []) :
    ∃ change, (change = .none ∨ change = .issue fresh ∨ change = .expire) ∧
      (layer.serve handler request fresh server).1.setCookies = layer.cookieHeaders change := by
  rw [serve]
  rcases (layer.start request).runFrom server.sessions with ⟨error | stored, loaded⟩
  · exact ⟨.none, .inl rfl, rfl⟩
  · simp only [finish]
    rcases hwrite : (layer.writeBack stored fresh
        (handler.run request ⟨.new (given stored), server.backing⟩).2.handle).runFrom loaded with
      ⟨error | change, written⟩
    · exact ⟨.none, .inl rfl, rfl⟩
    · refine ⟨change, change_of_writeBack hwrite, ?_⟩
      simp only [settle, hanswer, List.nil_append]

end SessionLayer

namespace AccountService

variable {service : AccountService σ β} {view : TimedView σ SessionToken α} {request : Request}
  {fresh token : SessionToken} {server : Server σ β}

/-- A request does not present this token, and does not begin it. -/
def Foreign (service : AccountService σ β) (request : Request) (fresh token : SessionToken) :
    Prop :=
  service.layer.cookie.token? request ≠ some token ∧ token ≠ fresh

theorem passesAt_serve (confined : service.layer.store.Confined view)
    (hforeign : service.Foreign request fresh token) :
    view.PassesAt token server.sessions (service.app.serve request fresh server).2.sessions := by
  cases hpath : assets.below? request.path with
  | some path =>
    rw [serve_static hpath]
    exact .refl token server.sessions
  | none =>
    rw [server_of_serve hpath]
    exact SessionLayer.passesAt_serve confined _ server hforeign.1 hforeign.2

theorem answer_of_serve (service : AccountService σ β) (fresh : SessionToken) (server : Server σ β)
    (hpath : assets.below? request.path = none) :
    ∃ allow body, (service.app.serve request fresh server).1 =
      { (service.layer.serve (service.handler request) request fresh server).1 with
        allow := allow, body := body } := by
  have hnamed : ∃ allow, (service.app.servePath request fresh server).1 =
      { (service.layer.serve (service.handler request) request fresh server).1 with allow } := by
    simp only [App.servePath, App.serveInside, app_openPaths, app_sessions, app_endpoints,
      List.lookup_nil, handler]
    cases service.endpoints.lookup request.path with
    | none => exact ⟨_, rfl⟩
    | some endpoint =>
      rcases endpoint with methods | ⟨gate, methods⟩ <;>
        simp only [Endpoint.nameIn, Methods.nameIn] <;>
        cases methods.select request.method <;> exact ⟨_, rfl⟩
  obtain ⟨allow, hnamed⟩ := hnamed
  rw [App.serve, hpath]
  dsimp only
  rw [hnamed]
  split
  · exact ⟨allow, "", rfl⟩
  · exact ⟨allow, _, rfl⟩

theorem setCookies_serve (service : AccountService σ β) (request : Request) (fresh : SessionToken)
    (server : Server σ β) :
    ∃ change, (change = .none ∨ change = .issue fresh ∨ change = .expire) ∧
      (service.app.serve request fresh server).1.setCookies =
        service.layer.cookieHeaders change := by
  cases hpath : assets.below? request.path with
  | some path =>
    rw [serve_static hpath]
    exact ⟨.none, .inl rfl, StaticFiles.setCookies_serve path⟩
  | none =>
    have hanswer (visit : Visit β) :
        ((service.handler request).run request visit).1.setCookies = [] := by
      obtain ⟨-, -, -, hcookies, -⟩ := service.does request visit
      exact hcookies
    obtain ⟨allow, body, hserved⟩ := answer_of_serve service fresh server hpath
    rw [hserved]
    exact SessionLayer.setCookies_serve _ server hanswer

end AccountService

/-- For either kind of session store, whatever fails: a request of another client makes no
difference to what loading a token answers, at the end of the request and at any later time, and its
own answer names no token but the one that was drawn for it. -/
theorem sessions_isolated {β : Type} :
    (∀ (ttl : UInt64) (service : AccountService (Faulty MemorySessions) β)
      (server : Server (Faulty MemorySessions) β) (request : Request) (fresh token : SessionToken)
      (time : Nat), service.layer.store = (MemorySessions.store ttl).withFaults →
      service.Foreign request fresh token →
      let before := server.sessions.contents
      let after := (service.app.serve request fresh server).2.sessions.contents
      let answer := (MemorySessions.store ttl).answerAt MemorySessions.clock.set time token
      after.now ≤ time → answer after = answer before) ∧
    (∀ {κ : Type} (keyValues : KeyValueServer κ) (law : keyValues.Expiring)
      (clock : law.toTimedView.Clock) (ttl : UInt64) (service : AccountService κ β)
      (server : Server κ β) (request : Request) (fresh token : SessionToken) (time : Nat),
      keyValues.Confined law.toTimedView →
      service.layer.store = KeyValueSessions.store keyValues ttl →
      service.Foreign request fresh token →
      let before := server.sessions
      let after := (service.app.serve request fresh server).2.sessions
      let answer := (KeyValueSessions.store keyValues ttl).answerAt clock.set time token
      let replies (sessions : κ) := ((keyValues.get (KeyValueSessions.key token)).runFrom
        (clock.set time sessions)).1.isOk = true
      law.now after ≤ time → replies before → replies after → answer after = answer before) ∧
    ∀ {σ : Type} (service : AccountService σ β) (server : Server σ β) (request : Request)
      (fresh : SessionToken),
      let cookies := (service.app.serve request fresh server).1.setCookies
      cookies = [] ∨ cookies = [service.layer.cookie.issue fresh] ∨
        cookies = [service.layer.cookie.expire] := by
  refine ⟨?_, ?_, ?_⟩
  · intro ttl service server request fresh token time hstore hforeign before after answer htime
    have confined := (MemorySessions.confined ttl).withFaults
    rw [← hstore] at confined
    have hpasses : (Faulty.view MemorySessions.view).PassesAt token server.sessions
        (service.app.serve request fresh server).2.sessions :=
      AccountService.passesAt_serve confined hforeign
    exact MemorySessions.answerAt_eq ttl ⟨hpasses.now_le, hpasses.lasts⟩ htime
  · intro κ keyValues law clock ttl service server request fresh token time hconfined hstore
      hforeign before after answer replies htime hbefore hafter
    have confined := KeyValueSessions.confined hconfined ttl
    rw [← hstore] at confined
    exact KeyValueSessions.answerAt_eq law clock ttl
      (AccountService.passesAt_serve confined hforeign) htime hbefore hafter
  · intro σ service server request fresh cookies
    obtain ⟨change, hchange, hcookies⟩ := service.setCookies_serve request fresh server
    rcases hchange with rfl | rfl | rfl
    · exact .inl hcookies
    · exact .inr (.inl hcookies)
    · exact .inr (.inr hcookies)

theorem sessions_isolated_samples :
    let credentials : CredentialStore (Salted UserTable) :=
      MemoryCredentials.store .plaintext fun _ => ⟨List.replicate 16 0, rfl⟩
    let game : AccountService (Faulty MemorySessions) (Salted UserTable) :=
      ⟨.minesweeper ⟨9, 9, 10⟩, ⟨(MemorySessions.store 60).withFaults, .sample⟩, credentials,
        Html.renderer⟩
    let users : AccountService ExpiringMap (Salted UserTable) :=
      ⟨.userSystem, ⟨KeyValueSessions.store ExpiringMap.server 60, .sample⟩, credentials,
        Html.renderer⟩
    let session : Session := { authenticated := true, userId := some ⟨"al"⟩ }
    let sessions : MemorySessions := MemorySessions.empty.save 60 ⟨2⟩ session
    let down : Server (Faulty MemorySessions) (Salted UserTable) :=
      ⟨⟨sessions, { load := some (.database "down") }⟩, ⟨.empty, 0⟩⟩
    let map := SessionLayer.corrupted.set (KeyValueSessions.key ⟨2⟩) 60
      (KeyValueSessions.payload session)
    let request := AccountPages.sampleGet .logout
    let after := (game.app.serve request ⟨3⟩ down).2.sessions.contents
    let mapAfter := (users.app.serve request ⟨3⟩ ⟨map, ⟨.empty, 0⟩⟩).2.sessions
    let answer := (KeyValueSessions.store ExpiringMap.server 60).answerAt ExpiringMap.clock.set
      mapAfter.now ⟨2⟩
    game.Foreign request ⟨3⟩ ⟨2⟩ ∧ users.Foreign request ⟨3⟩ ⟨2⟩ ∧ after.now ≤ 5 ∧
      (MemorySessions.store 60).answerAt MemorySessions.clock.set 5 ⟨2⟩ after =
        .ok (some session) ∧
      answer mapAfter = answer map := by
  intro credentials game users session sessions down map request after mapAfter answer
  have hpresented : SessionCookie.sample.token? request = some ⟨1⟩ :=
    SessionCookie.token?_sample rfl
  have hone : SessionCookie.sample.token? request ≠ some ⟨2⟩ := by
    rw [hpresented]
    decide
  have hgame : game.Foreign request ⟨3⟩ ⟨2⟩ := ⟨hone, by decide⟩
  have husers : users.Foreign request ⟨3⟩ ⟨2⟩ := ⟨hone, by decide⟩
  have hafter : after = sessions := by
    have hstart : (game.layer.start request).runFrom down.sessions =
        (.error (.database "down"), down.sessions) := by
      rw [SessionLayer.start, show game.layer.cookie.token? request = some ⟨1⟩ from hpresented]
      rfl
    have hserve : game.app.serve request ⟨3⟩ down =
        game.layer.serve (game.handler request) request ⟨3⟩ down :=
      AccountService.serve_get rfl (Route.below?_path .logout)
    change (game.app.serve request ⟨3⟩ down).2.sessions.contents = sessions
    rw [hserve, SessionLayer.serve, hstart]
  have htime : after.now ≤ 5 := by
    rw [hafter]
    decide
  refine ⟨hgame, husers, htime, ?_, ?_⟩
  · refine ((sessions_isolated.1 60 game down request ⟨3⟩ ⟨2⟩ 5 rfl hgame) htime).trans ?_
    rfl
  · exact sessions_isolated.2.1 ExpiringMap.server ExpiringMap.expiring ExpiringMap.clock 60 users
      ⟨map, ⟨.empty, 0⟩⟩ request ⟨3⟩ ⟨2⟩ mapAfter.now ExpiringMap.confined rfl husers
      (Nat.le_refl _) rfl rfl

end Gatehouse
