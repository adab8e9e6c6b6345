import Gatehouse.Html.Pages
import Gatehouse.Proofs.Credentials.Calls
import Gatehouse.Proofs.Site.Overlap
import Gatehouse.Proofs.Site.StoredSessions

set_option autoImplicit false

/-!
# Sessions of users who are gone

A session may outlive its user. The first page that looks for the user ends it: the token stands for
nothing from then on, and whoever presents it again is stopped at the gate.
-/

namespace Gatehouse

variable {σ β : Type}

namespace AccountService

open AccountPages (sampleGet sampleName)

variable (service : AccountService σ β)

/-- The same site over a store that writes down its calls. -/
def recorded : AccountService σ (Recorded β) :=
  ⟨service.site, service.layer, service.credentials.recorded, service.renderer⟩

def userView? (board : Board) : Route → Option (User → View)
  | .home => some fun user => .game board user.shownScore
  | .profile => some fun user => .profile user.username user.shownScore
  | _ => none

/-- A request to a path behind the gate that presents a token is sent to sign in. Nothing is asked
of the accounts. -/
def Stops (token : SessionToken) (server : Server σ β) : Prop :=
  ∀ request fresh stored loaded, ∀ route ∈ service.site.gatedRoutes, request.path = route.path →
    service.layer.cookie.token? request = some token →
    (service.layer.start request).runFrom server.sessions = (.ok stored, loaded) →
    ∃ response, response.SendsTo Route.login.path ∧
      service.app.serve request fresh server = (response, ⟨loaded, server.backing⟩) ∧
      ∀ calls, service.recorded.app.serve request fresh ⟨server.sessions, server.backing, calls⟩ =
        (response, ⟨loaded, server.backing, calls⟩)

/-- What a server comes to by steps of requests, which may overlap. Between them the accounts may
change. No token that has been presented is ever generated. -/
inductive Later (keeping : SessionKeeping service.layer.store) (token : SessionToken)
    (state : InFlight σ β) : InFlight σ β → Prop
  | refl : Later keeping token state state
  | step {mid next : InFlight σ β} {event : Event} (later : Later keeping token state mid)
      (step : service.Step keeping mid event next)
      (generates : ∀ pending fresh handle, event = .finish pending fresh handle → fresh ≠ token) :
      Later keeping token state next
  | change {mid : InFlight σ β} {backing : β} (later : Later keeping token state mid) :
      Later keeping token state ⟨⟨mid.server.sessions, backing⟩, mid.pending⟩

variable {service} {keeping : SessionKeeping service.layer.store} {token fresh : SessionToken}
  {request : Request} {server : Server σ β} {stored : Option StoredSession} {loaded : σ}
  {route : Route} {board : Board} {view : User → View}

def turnedAway (request : Request) : Response :=
  (Methods.get ()).nameIn request (.seeOther Route.login.path)

theorem sendsTo_turnedAway (request : Request) :
    (turnedAway request).SendsTo Route.login.path := by
  rw [turnedAway, Methods.nameIn]
  split <;> exact ⟨rfl, rfl⟩

theorem nameIn_get {α : Type} (handler : α) (request : Request) :
    (Methods.get handler).nameIn request (.seeOther Route.login.path) = turnedAway request := by
  simp only [turnedAway, Methods.nameIn, Methods.select, Methods.allow]
  by_cases hmethod : request.method = "GET" ∨ request.method = "HEAD"
  · simp only [if_pos hmethod]
  · simp only [if_neg hmethod]

theorem body_turnedAway (request : Request) : (turnedAway request).body = "" := by
  rw [turnedAway, Methods.nameIn]
  split <;> rfl

theorem serve_turnedAway (hroute : route ∈ service.site.gatedRoutes)
    (hpath : request.path = route.path)
    (hstart : (service.layer.start request).runFrom server.sessions = (.ok stored, loaded))
    (hanonymous : (SessionLayer.given stored).isAuthenticated = false) :
    service.app.serve request fresh server =
      (turnedAway request, ⟨loaded, server.backing⟩) := by
  obtain ⟨handler, hlookup⟩ := lookup_gatedRoutes hroute hpath
  have hrun := Endpoint.run_gated {} (.get handler) request
    ⟨.new (SessionLayer.given stored), server.backing⟩
  simp only [SessionHandle.new, SessionGate.check_eq_error hanonymous] at hrun
  have hserve : service.layer.serve (Endpoint.gated {} (.get handler)).handle request fresh server =
      (.seeOther Route.login.path, ⟨loaded, server.backing⟩) :=
    SessionLayer.serve_of_idle hstart hrun
  rw [App.serve, hpath, route.below?_path]
  simp only [App.servePath, App.serveInside, app_openPaths, app_sessions, app_endpoints,
    List.lookup_nil, hlookup, hserve, Endpoint.nameIn, nameIn_get]
  split
  · rw [← body_turnedAway request]
  · rfl

structure Quiet (keeping : SessionKeeping service.layer.store) (token : SessionToken)
    (state : InFlight σ β) : Prop where
  stored : keeping.Holds (QuietAt token) state.server.sessions
  loaded : OnlyOld token [] state.pending

theorem stops_of_quiet (h : keeping.Holds (QuietAt token) server.sessions) :
    service.Stops token server := by
  intro request fresh stored loaded route hroute hpath hpresented hstart
  have hanonymous : (SessionLayer.given stored).isAuthenticated = false := by
    have hstarted := SessionLayer.started keeping hstart
    rcases stored with _ | ⟨other, session⟩
    · rfl
    · obtain ⟨hother, hquiet⟩ := h.loaded hstarted
      rw [hpresented] at hother
      exact hquiet (Option.some.inj hother).symm
  exact ⟨turnedAway request, sendsTo_turnedAway request,
    serve_turnedAway hroute hpath hstart hanonymous,
    fun calls => serve_turnedAway hroute hpath hstart hanonymous⟩

theorem quiet_step {state next : InFlight σ β} {event : Event} (h : Quiet keeping token state)
    (hstep : service.Step keeping state event next)
    (hfresh : ∀ pending fresh handle, event = .finish pending fresh handle → fresh ≠ token) :
    Quiet keeping token next := by
  refine ⟨?_, step_onlyOld hstep h.stored h.loaded⟩
  rcases step_quiet hstep h.stored hfresh with
    hquiet | ⟨pending, hpending, -, handle, -, session, hstored, hauthenticated, -⟩
  · exact hquiet
  · exact absurd (h.loaded pending hpending session hstored hauthenticated) List.not_mem_nil

theorem quiet_later {state late : InFlight σ β} (h : Quiet keeping token state)
    (hlater : service.Later keeping token state late) : Quiet keeping token late := by
  induction hlater with
  | refl => exact h
  | step later step generates ih => exact quiet_step ih step generates
  | change later ih => exact ⟨ih.stored, ih.loaded⟩

variable (service keeping server) in
/-- A request for a page of the game that shows its user, with the token of an authenticated
session. -/
structure UserRequest where
  board : Board
  route : Route
  view : User → View
  request : Request
  token : SessionToken
  session : Session
  id : UserId
  site : service.site = .minesweeper board
  shows : userView? board route = some view
  method : request.method = "GET"
  path : request.path = route.path
  presents : service.layer.cookie.token? request = some token
  stored : keeping.session? server.sessions token = some session
  flag : session.authenticated = true
  user : session.userId = some id

namespace UserRequest

variable (asked : UserRequest service keeping server)

theorem isAuthenticated : asked.session.isAuthenticated = true := by
  rw [Session.isAuthenticated, asked.flag, asked.user]
  rfl

theorem run_handler :
    (service.handler asked.request).run asked.request ⟨.new asked.session, server.backing⟩ =
      match (service.credentials.get asked.id).runFrom server.backing with
      | (.ok (some user), accounts) =>
        ((Page.render (asked.view user)).answer service.renderer, ⟨.new asked.session, accounts⟩)
      | (.ok none, accounts) =>
        (.seeOther Route.login.path, ⟨(SessionHandle.new asked.session).commit .new, accounts⟩)
      | (.error _, accounts) => (.serverError, ⟨.new asked.session, accounts⟩) := by
  have hlookup : service.endpoints.lookup asked.request.path =
      some (.gated {} (.get ((Minesweeper.mk service.pages asked.board).showUser asked.view))) := by
    obtain ⟨board, route, view, request, -, -, -, hsite, hview, -, hpath, -, -, -, -⟩ := asked
    obtain ⟨site, layer, credentials, renderer⟩ := service
    cases hsite
    rw [hpath]
    cases route <;> cases hview <;> rfl
  have hcheck : SessionGate.check {} asked.session = .ok ⟨asked.id⟩ :=
    (SessionGate.check_eq_ok_iff _ _ _).2 ⟨asked.flag, asked.user⟩
  rw [handler, hlookup]
  simp only [Endpoint.run_gated, SessionHandle.new, hcheck, Methods.select, asked.method, true_or,
    if_true, Minesweeper.run_showUser, pages_credentials, CredentialStore.loadProfile,
    Attempt.runFrom_bind, Attempt.runFrom_mapError]
  rcases (service.credentials.get asked.id).runFrom server.backing with
    ⟨error | _ | user, accounts⟩ <;> rfl

theorem started_found {after : σ}
    (h : keeping.Started server.sessions (service.layer.cookie.token? asked.request) stored after) :
    stored = some (asked.token, asked.session) ∧ keeping.Steady server.sessions after := by
  have hstored := asked.stored
  rw [SessionKeeping.session?] at hstored
  rw [asked.presents] at h
  cases h with
  | unknown live steady => simp [live] at hstored
  | discarded live sets => simp [live] at hstored
  | found live steady =>
    simp only [live, Option.join_some, Option.some.injEq] at hstored
    exact ⟨by rw [hstored], steady⟩

theorem writtenBack_ended {change : CookieChange} {after : σ}
    (h : keeping.WrittenBack loaded fresh ((SessionHandle.new asked.session).commit .new)
      (some (asked.token, asked.session)) change after) :
    change = .expire ∧ keeping.Sets asked.token none loaded after := by
  have hmodified : ((SessionHandle.new asked.session).commit .new).modified = true := by
    rw [SessionHandle.modified_commit]
    simpa [SessionHandle.new] using Session.ne_new_of_isAuthenticated asked.isAuthenticated
  cases h with
  | unchanged modified => exact absurd (modified.symm.trans hmodified) Bool.false_ne_true
  | ended modified empty sets => exact ⟨rfl, sets⟩
  | moved modified wasAnonymous isAuthenticated removes sets =>
    exact absurd (wasAnonymous.symm.trans asked.isAuthenticated) Bool.false_ne_true
  | kept modified nonempty noRise sets => exact absurd rfl nonempty

theorem shows_user (user : User) :
    .text (toString user.shownScore.toInt) ∈ Html.ofView (asked.view user) ∧
      (asked.route = .profile → .text user.username.text ∈ Html.ofView (asked.view user)) := by
  obtain ⟨board, route, view, -, -, -, -, -, hview, -, -, -, -, -, -⟩ := asked
  cases route <;> cases hview
  · simp [Html.ofView, Html.game, Html.layout]
  · simp [Html.ofView, Html.profile, Html.layout]

theorem serve_of_calm (calm : service.Calm asked.request fresh server) {answer : Response}
    {handle : SessionHandle} {accounts : β}
    (hrun : (service.handler asked.request).run asked.request
      ⟨.new asked.session, server.backing⟩ = (answer, ⟨handle, accounts⟩)) :
    ∃ loaded change written, keeping.Steady server.sessions loaded ∧
      keeping.WrittenBack loaded fresh handle (some (asked.token, asked.session)) change written ∧
      service.app.serve asked.request fresh server =
        (service.layer.settle answer (.ok change), ⟨written, accounts⟩) := by
  have hpath : assets.below? asked.request.path = none := asked.path ▸ asked.route.below?_path
  obtain ⟨stored, loaded, change, written, starts, writes⟩ := calm hpath
  obtain ⟨rfl, hsteady⟩ := asked.started_found (SessionLayer.started keeping starts)
  change (service.layer.writeBack _ fresh ((service.handler asked.request).run asked.request
    ⟨.new asked.session, server.backing⟩).2.handle).runFrom loaded = _ at writes
  rw [hrun] at writes
  refine ⟨loaded, change, written, hsteady, SessionLayer.writtenBack keeping writes, ?_⟩
  rw [serve_get asked.method hpath, SessionLayer.serve_of_run starts hrun]
  simp only [writes]

theorem serve_gone (calm : service.Calm asked.request fresh server) {accounts : β}
    (hgone : (service.credentials.get asked.id).runFrom server.backing = (.ok none, accounts)) :
    ∃ written, keeping.Sets asked.token none server.sessions written ∧
      service.app.serve asked.request fresh server =
        ({ Response.seeOther Route.login.path with setCookies := [service.layer.cookie.expire] },
          ⟨written, accounts⟩) := by
  have hrun := asked.run_handler
  rw [hgone] at hrun
  obtain ⟨loaded, change, written, hsteady, hwritten, hserve⟩ := asked.serve_of_calm calm hrun
  obtain ⟨rfl, hsets⟩ := asked.writtenBack_ended hwritten
  exact ⟨written, hsteady.sets hsets, hserve⟩

theorem serve_found (calm : service.Calm asked.request fresh server) {accounts : β} {user : User}
    (hfound : (service.credentials.get asked.id).runFrom server.backing =
      (.ok (some user), accounts)) :
    ∃ loaded, keeping.Steady server.sessions loaded ∧
      service.app.serve asked.request fresh server =
        ((Page.render (asked.view user)).answer service.renderer, ⟨loaded, accounts⟩) := by
  have hrun := asked.run_handler
  rw [hfound] at hrun
  obtain ⟨loaded, change, written, hsteady, hwritten, hserve⟩ := asked.serve_of_calm calm hrun
  cases hwritten with
  | unchanged modified =>
    refine ⟨loaded, hsteady, ?_⟩
    rw [hserve]
    simp only [SessionLayer.settle, SessionLayer.cookieHeaders, List.append_nil]
  | ended modified | moved modified | kept modified => cases modified

end UserRequest

/-- A page of the game about a user who is gone ends the session: the client is sent to sign in
without its cookie, the token stands for nothing, and nobody else loses a session. Whoever presents
the token later is stopped before anything is asked of the accounts. A page about a user who is
there shows this user and leaves the sessions alone. -/
theorem vanished_session_ends (asked : UserRequest service keeping server)
    (calm : service.Calm asked.request fresh server) :
    let response := (service.app.serve asked.request fresh server).1
    let next := (service.app.serve asked.request fresh server).2
    (∀ accounts,
      (service.credentials.get asked.id).runFrom server.backing = (.ok none, accounts) →
        response = { Response.seeOther Route.login.path with
          setCookies := [service.layer.cookie.expire] } ∧
        keeping.live? next.sessions asked.token = none ∧
        (∀ other, other ≠ asked.token →
          keeping.live? next.sessions other = keeping.live? server.sessions other) ∧
        ∀ pending late, OnlyOld asked.token [] pending →
          service.Later keeping asked.token ⟨next, pending⟩ late →
            service.Stops asked.token late.server) ∧
    ∀ accounts user,
      (service.credentials.get asked.id).runFrom server.backing = (.ok (some user), accounts) →
        response = (Page.render (asked.view user)).answer service.renderer ∧
        .text (toString user.shownScore.toInt) ∈ Html.ofView (asked.view user) ∧
        (asked.route = .profile → .text user.username.text ∈ Html.ofView (asked.view user)) ∧
        keeping.Steady server.sessions next.sessions := by
  intro response next
  constructor
  · intro accounts hgone
    obtain ⟨written, hsets, hserve⟩ := asked.serve_gone calm hgone
    have hnext : next.sessions = written := congrArg (fun served => served.2.sessions) hserve
    have hnone : keeping.live? next.sessions asked.token = none := by
      rw [hnext]
      exact hsets.live?_self_none
    refine ⟨congrArg Prod.fst hserve, hnone, fun other hne => ?_, ?_⟩
    · rw [hnext]
      exact hsets.live?_eq hne
    · intro pending late hpending hlater
      refine stops_of_quiet (quiet_later ⟨?_, hpending⟩ hlater).stored
      rintro other session hlive rfl
      rw [hnone] at hlive
      cases hlive
  · intro accounts user hfound
    obtain ⟨loaded, hsteady, hserve⟩ := asked.serve_found calm hfound
    have hnext : next.sessions = loaded := congrArg (fun served => served.2.sessions) hserve
    obtain ⟨hscore, hname⟩ := asked.shows_user user
    exact ⟨congrArg Prod.fst hserve, hscore, hname, hnext ▸ hsteady⟩

def noticedSession : Session := ⟨true, some ⟨"al"⟩, [⟨.info, "Hello"⟩]⟩

def noticedServer (users : UserTable) : MemoryServer :=
  ⟨MemorySessions.empty.save 60 ⟨1⟩ noticedSession, ⟨users, 1⟩⟩

def profileRequest (users : UserTable) :
    UserRequest MemoryService.sampleHost.service (MemorySessions.keeping 60)
      (noticedServer users) where
  board := ⟨9, 9, 10⟩
  route := .profile
  view user := .profile user.username user.shownScore
  request := sampleGet .profile
  token := ⟨1⟩
  session := noticedSession
  id := ⟨"al"⟩
  site := rfl
  shows := rfl
  method := rfl
  path := rfl
  presents := SessionCookie.token?_sample rfl
  stored := rfl
  flag := rfl
  user := rfl

theorem vanished_session_ends_samples :
    let game := MemoryService.sampleHost.service
    let there := UserTable.empty.insert "al" "pw"
    (game.app.serve (sampleGet .profile) ⟨2⟩ (noticedServer there)).1 =
        (Page.render (.profile sampleName 0)).answer game.renderer ∧
      (game.app.serve (sampleGet .profile) ⟨2⟩ (noticedServer .empty)).1.SendsTo "/login" ∧
      game.Stops ⟨1⟩ (game.app.serve (sampleGet .profile) ⟨2⟩ (noticedServer .empty)).2 := by
  intro game there
  have hcalm (users : UserTable) : game.Calm (sampleGet .profile) ⟨2⟩ (noticedServer users) :=
    calm_of_healthy (MemorySessions.healthy 60) trivial
  have hfound := (vanished_session_ends (profileRequest there) (hcalm there)).2
  have hgone := (vanished_session_ends (profileRequest .empty) (hcalm .empty)).1
  have hget : (game.credentials.get ⟨"al"⟩).runFrom ⟨there, 1⟩ =
      (.ok (some (.named sampleName "pw")), ⟨there, 1⟩) := rfl
  have hnone : (game.credentials.get ⟨"al"⟩).runFrom ⟨.empty, 1⟩ = (.ok none, ⟨.empty, 1⟩) := rfl
  obtain ⟨hresponse, -, -, hlater⟩ := hgone _ hnone
  refine ⟨(hfound _ _ hget).1, ?_, ?_⟩
  · rw [show sampleGet .profile = (profileRequest .empty).request from rfl, hresponse]
    exact ⟨rfl, rfl⟩
  · exact hlater [] _ (by simp [OnlyOld]) .refl

end AccountService

end Gatehouse
