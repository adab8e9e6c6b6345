import Gatehouse.Html.Pages
import Gatehouse.Proofs.Credentials.Memory
import Gatehouse.Proofs.Http.Continuity
import Gatehouse.Proofs.Session.Healthy
import Gatehouse.Proofs.Site.History
import Gatehouse.Proofs.Site.Telling

set_option autoImplicit false

/-!
# Notices are shown once

For a client that always sends the cookie that it was given last, the notices in its session are one
queue from its first request on. Neither a new token nor anything else loses a notice or repeats
one.
-/

namespace Gatehouse

namespace StaticFiles

variable {files : StaticFiles} {request : Request}

theorem setCookies_sendFile (file : StaticFile) : (sendFile request file).setCookies = [] := by
  unfold sendFile
  split
  · rfl
  · split <;> rfl

theorem setCookies_serveFile (file : StaticFile) :
    (files.serveFile request file).setCookies = [] := by
  simp only [serveFile]
  split
  · rfl
  · split
    · rfl
    · exact setCookies_sendFile file

theorem setCookies_serve (path : String) : (files.serve request path).setCookies = [] := by
  unfold serve
  split
  · rfl
  · split
    · rfl
    · split
      · split <;> rfl
      · split
        · exact setCookies_serveFile _
        · unfold ofIoError
          split <;> rfl

end StaticFiles

namespace SessionKeeping

variable {σ : Type} {store : SessionStore σ} (keeping : SessionKeeping store)
  {presented : Option SessionToken} {before between later : σ}

/-- Time passes, but not so much that the session of a visitor expires. -/
structure Waits (presented : Option SessionToken) (before later : σ) : Prop where
  passes : keeping.Passes before later
  unexpired : ∀ token kept, presented = some token → keeping.kept? before token = some kept →
    keeping.now later < kept.expiresAt

variable {keeping}

theorem Waits.refl (h : keeping.Unexpired before) : keeping.Waits presented before before :=
  ⟨⟨Nat.le_refl _, fun _ => .refl _ _⟩, fun token kept _ hkept => h token kept hkept⟩

theorem Waits.trans (h : keeping.Waits presented before between)
    (h' : keeping.Waits presented between later) : keeping.Waits presented before later := by
  refine ⟨h.passes.trans h'.passes, fun token kept hpresented hkept => ?_⟩
  refine h'.unexpired token kept hpresented ?_
  rcases h.passes.lasts token with heq | ⟨-, hexpired⟩
  · exact heq.trans hkept
  · exact absurd (h.unexpired token kept hpresented hkept) (Nat.not_lt.2 (hexpired kept hkept))

variable (keeping) in
/-- What is pending in the session of a visitor, when the next request comes. -/
def Queues (presented : Option SessionToken) (queue : List Flash) (state : σ) : Prop :=
  ∀ later, keeping.Waits presented state later →
    (keeping.session later presented).flashes = queue

theorem Queues.waits {queue : List Flash} (h : keeping.Queues presented queue before)
    (hwaits : keeping.Waits presented before later) : keeping.Queues presented queue later :=
  fun last hlast => h last (hwaits.trans hlast)

end SessionKeeping

namespace AccountService

variable {σ β : Type} (service : AccountService σ β)

/-- What the user system tells with its answer to a request. -/
def telling (request : Request) (server : Server σ β) : Telling :=
  match assets.below? request.path with
  | some path => .other (assets.serve request path)
  | none =>
    (UserSystem.mk service.pages).telling request (service.admitted? request server.sessions)
      server.backing

variable {service} {keeping : SessionKeeping service.layer.store} {request : Request}
  {fresh : SessionToken} {server : Server σ β} {visit : Visit β} {queue : List Flash}
  {held : Option String}

theorem tells_handler (hsite : service.site = .userSystem) (htotal : service.renderer.Total) :
    Handler.Tells service.renderer visit
      ((UserSystem.mk service.pages).telling request
        (SessionGate.check {} visit.handle.session).toOption visit.backing)
      ((service.handler request).run request visit) := by
  have hflow : service.pages.flow = .userSystem := by
    rw [pages_flow, hsite]
    rfl
  have hmatches : UserSystem.Matches service.renderer visit request
      (UserSystem.mk service.pages).endpoints
      ((UserSystem.mk service.pages).tellings request
        (SessionGate.check {} visit.handle.session).toOption visit.backing) :=
    UserSystem.matches_tellings htotal hflow
  rw [handler, endpoints, hsite]
  exact UserSystem.tells_lookup hmatches

theorem telling_of_round (hpath : assets.below? request.path = none)
    (round : service.layer.Round (service.handler request) request fresh server) :
    service.telling request server =
      (UserSystem.mk service.pages).telling request
        (SessionGate.check {} (SessionLayer.given round.stored)).toOption server.backing := by
  simp only [telling, hpath, admitted?, round.starts]

/-- What a request tells, and what it leaves to the next one. -/
theorem round_tells (hsite : service.site = .userSystem) (htotal : service.renderer.Total)
    (hpath : assets.below? request.path = none)
    (round : service.layer.Round (service.handler request) request fresh server)
    (hsends : Cookie.value? service.layer.cookie.name request = held)
    (hqueue : (keeping.session server.sessions (held.bind SessionToken.ofText?)).flashes = queue) :
    (service.telling request server).Shows service.renderer queue round.answer ∧
      keeping.Queues
        ((service.layer.cookie.heldAfter held round.response.setCookies).bind SessionToken.ofText?)
        ((service.telling request server).after queue) round.written := by
  have htoken : service.layer.cookie.token? request = held.bind SessionToken.ofText? := by
    rw [SessionCookie.token?, hsends]
  have hstarted := round.started keeping
  have hwritten := round.writtenBack keeping
  rw [htoken] at hstarted
  have hgiven := SessionKeeping.given_of_started hstarted
  have hrun : (service.handler request).run request
      ⟨.new (SessionLayer.given round.stored), server.backing⟩ = (round.answer, round.visit) := rfl
  obtain ⟨_, -, hcookies, -⟩ := effect_of_run hrun
  have htells : Handler.Tells service.renderer
      ⟨.new (SessionLayer.given round.stored), server.backing⟩ (service.telling request server)
      (round.answer, round.visit) := by
    rw [telling_of_round hpath round]
    exact tells_handler hsite htotal
  obtain ⟨hshows, hleaves⟩ := htells
  have hpending : (SessionLayer.given round.stored).flashes = queue := by rw [hgiven, hqueue]
  simp only [SessionHandle.new, hpending] at hshows hleaves
  refine ⟨hshows, fun later hwaits => ?_⟩
  rw [round.setCookies_eq hcookies, SessionLayer.presented_heldAfter] at hwaits ⊢
  have hcarried := SessionKeeping.session_carried hstarted hwritten
    (session_of_unmodified hrun) hwaits.passes hwaits.unexpired
  rw [hcarried]
  exact hleaves

variable (service keeping) in
/-- What a client has been answered, the last answer first, by a server with a store of sessions
that is `Fine`. Its cookie stands for no session at first, and it always sends the one that it was
given last, before the session there expires. In the meantime the accounts may change. -/
inductive Browses (Fine : σ → Prop) :
    List (Telling × Response) → Server σ β → Option String → Prop
  | start {server : Server σ β} {held : Option String}
      (unknown : ∀ token, held.bind SessionToken.ofText? = some token →
        keeping.live? server.sessions token = none) :
      Browses Fine [] server held
  | turn {past : List (Telling × Response)} {before server after : Server σ β}
      {held : Option String} {request : Request} {fresh : SessionToken} {response : Response}
      (browses : Browses Fine past before held)
      (waits : keeping.Waits (held.bind SessionToken.ofText?) before.sessions server.sessions)
      (fine : Fine server.sessions) (method : request.method = "GET" ∨ request.method = "POST")
      (sends : Cookie.value? service.layer.cookie.name request = held)
      (serves : service.app.serve request fresh server = (response, after)) :
      Browses Fine ((service.telling request server, response) :: past) after
        (service.layer.cookie.heldAfter held response.setCookies)

variable {Fine : σ → Prop} {past : List (Telling × Response)}

theorem browses_tells (hsite : service.site = .userSystem) (htotal : service.renderer.Total)
    (healthy : service.layer.store.Healthy Fine)
    (hbrowses : service.Browses keeping Fine past server held) :
    Telling.Answered service.renderer past ∧
      keeping.Queues (held.bind SessionToken.ofText?) (Telling.pending (past.map Prod.fst))
        server.sessions := by
  induction hbrowses with
  | @start server held unknown =>
    refine ⟨trivial, fun later hwaits => ?_⟩
    cases hheld : held.bind SessionToken.ofText? with
    | none => rfl
    | some token =>
      have hnone := hwaits.passes.live?_none (unknown token hheld)
      rw [SessionKeeping.session, Option.bind_some, SessionKeeping.session?, hnone]
      rfl
  | @turn past before server _ held request fresh _ browses waits fine method sends serves ih =>
    obtain ⟨hanswered, hqueues⟩ := ih
    cases hpath : assets.below? request.path with
    | some path =>
      rw [serve_static hpath] at serves
      cases serves
      have hother : service.telling request server = .other (assets.serve request path) := by
        simp only [telling, hpath]
      rw [StaticFiles.setCookies_serve, hother]
      exact ⟨⟨⟨_, _, _, .other, rfl⟩, hanswered⟩, hqueues.waits waits⟩
    | none =>
      have hbody : ∀ status, request.dropsBody status = false := by
        rcases method with hget | hpost
        · exact dropsBody_of_get hget
        · exact dropsBody_of_post hpost
      obtain ⟨allow, hserve⟩ := service.serve_eq fresh server hpath hbody
      obtain ⟨round, -⟩ := SessionLayer.round_of_healthy healthy (service.handler request)
        request fresh server fine
      rw [hserve, round.serve_eq] at serves
      cases serves
      obtain ⟨hshows, hleft⟩ :=
        round_tells hsite htotal hpath round sends (hqueues server.sessions waits)
      exact ⟨⟨⟨round.answer, allow, _, hshows, rfl⟩, hanswered⟩, hleft⟩

/-- Each answer shows exactly what the queue has when it is given, with the objection of the page
after it. Between two logouts, every notice is shown once, in order, or still pending. -/
theorem notices_shown_once (hsite : service.site = .userSystem) (htotal : service.renderer.Total)
    (healthy : service.layer.store.Healthy Fine)
    (hbrowses : service.Browses keeping Fine past server held) :
    Telling.Answered service.renderer past ∧
      ∀ later earlier, past.map Prod.fst = later ++ earlier → .farewell ∉ later →
        Telling.shown (past.map Prod.fst) ++ Telling.pending (past.map Prod.fst) =
          Telling.shown earlier ++ Telling.pending earlier ++ Telling.announced later := by
  refine ⟨(browses_tells hsite htotal healthy hbrowses).1, ?_⟩
  intro later earlier hsplit hfarewell
  rw [hsplit]
  exact Telling.shown_append_pending hfarewell

theorem renderer_total : Html.renderer.Total :=
  fun view => ⟨(Html.ofView view).toDocument, rfl⟩

def sampleSystem : AccountService MemorySessions (Salted UserTable) where
  site := .userSystem
  layer := ⟨MemorySessions.store 60, .sample⟩
  credentials := MemoryCredentials.store .plaintext MemoryService.sampleHost.salts
  renderer := Html.renderer

def newlyRegistered : Session := { flashes := [⟨.success, AccountPages.registered⟩] }

def newlySignedIn : Session :=
  (newlyRegistered.authenticate ⟨"al"⟩).pushFlash ⟨.success, AccountPages.signedIn⟩

def cookieOne : List Header := [⟨"cookie", "s=00000000-0000-0000-0000-000000000001"⟩]

def successRequest : Request where
  method := "GET"
  target := { path := Route.success.path }
  headers := [⟨"cookie", "s=00000000-0000-0000-0000-000000000002"⟩]

theorem value?_cookieOne (route : Route) :
    Cookie.value? "s" (AccountPages.samplePost route cookieOne) =
      some (toString (⟨1⟩ : SessionToken)) := by
  have hcookies : (AccountPages.samplePost route cookieOne).valuesOf "cookie" =
      ["s" ++ "=" ++ toString (⟨1⟩ : SessionToken)] := rfl
  exact Cookie.value?_of_shown (by decide) (by decide) (by decide)
    (Cookie.all_isShown_toString ⟨1⟩) hcookies

theorem value?_successRequest :
    Cookie.value? "s" successRequest = some (toString (⟨2⟩ : SessionToken)) := by
  have hcookies : successRequest.valuesOf "cookie" =
      ["s" ++ "=" ++ toString (⟨2⟩ : SessionToken)] := rfl
  exact Cookie.value?_of_shown (by decide) (by decide) (by decide)
    (Cookie.all_isShown_toString ⟨2⟩) hcookies

theorem token?_of_value? {request : Request} {token : SessionToken}
    (h : Cookie.value? "s" request = some (toString token)) :
    SessionCookie.sample.token? request = some token := by
  rw [SessionCookie.token?, SessionCookie.sample, h, Option.bind_some,
    SessionToken.ofText?_toString]

def accounts : Salted UserTable := ⟨UserTable.empty.insert "al" "pw", 1⟩

def registeredServer : Server MemorySessions (Salted UserTable) :=
  ⟨MemorySessions.empty.save 60 ⟨1⟩ newlyRegistered, accounts⟩

def signedInServer : Server MemorySessions (Salted UserTable) :=
  ⟨(registeredServer.sessions.drop ⟨1⟩).save 60 ⟨2⟩ newlySignedIn, accounts⟩

theorem signUp_sample : (sampleSystem.pages.signUp ⟨"al", "pw"⟩).runFrom ⟨.empty, 0⟩ =
    (.ok none, accounts) := by
  rw [AccountPages.signUp, AccountPages.parse_samplePost]
  rfl

theorem signIn_sample (session : Session) :
    (sampleSystem.pages.signIn ⟨"al", "pw"⟩ session).runFrom accounts =
      (.ok (session.authenticate ⟨"al"⟩), accounts) := by
  rw [AccountPages.signIn, AccountPages.parse_samplePost]
  rfl

theorem serve_register_sample :
    sampleSystem.app.serve (AccountPages.samplePost .register []) ⟨1⟩ ⟨.empty, ⟨.empty, 0⟩⟩ =
      ({ Response.seeOther "/login" with setCookies := [SessionCookie.sample.issue ⟨1⟩] },
        registeredServer) := by
  have hstart : (sampleSystem.layer.start (AccountPages.samplePost .register [])).runFrom .empty =
      (.ok none, .empty) := by
    rw [SessionLayer.start, SessionCookie.token?_of_no_cookies rfl]
    rfl
  have hrun : (sampleSystem.handler (AccountPages.samplePost .register [])).run
      (AccountPages.samplePost .register []) ⟨.new .new, ⟨.empty, 0⟩⟩ =
        (.seeOther "/login", ⟨(SessionHandle.new .new).commit newlyRegistered, accounts⟩) := by
    change sampleSystem.pages.register.run _ _ = _
    rw [AccountPages.run_register, AccountPages.ofRequest_samplePost]
    simp only [signUp_sample]
    rfl
  rw [serve_post rfl (.inr rfl) rfl, SessionLayer.serve_of_run hstart hrun]
  rfl

theorem serve_login_sample :
    sampleSystem.app.serve (AccountPages.samplePost .login cookieOne) ⟨2⟩
      registeredServer =
        ({ Response.seeOther "/success" with setCookies := [SessionCookie.sample.issue ⟨2⟩] },
          signedInServer) := by
  have htoken : sampleSystem.layer.cookie.token? (AccountPages.samplePost .login cookieOne) =
      some ⟨1⟩ := token?_of_value? (value?_cookieOne .login)
  have hstart : (sampleSystem.layer.start
      (AccountPages.samplePost .login cookieOne)).runFrom
        registeredServer.sessions =
          (.ok (some (⟨1⟩, newlyRegistered)), registeredServer.sessions) := by
    rw [SessionLayer.start, htoken]
    rfl
  have hrun : (sampleSystem.handler
      (AccountPages.samplePost .login cookieOne)).run
      (AccountPages.samplePost .login cookieOne)
      ⟨.new newlyRegistered, accounts⟩ =
        (.seeOther "/success",
          ⟨(SessionHandle.new newlyRegistered).commit newlySignedIn, accounts⟩) := by
    change sampleSystem.pages.login.run _ _ = _
    rw [AccountPages.run_login, AccountPages.ofRequest_samplePost]
    simp only [SessionHandle.new, signIn_sample]
    rfl
  rw [serve_post rfl (.inl rfl) rfl, SessionLayer.serve_of_run hstart hrun]
  rfl

theorem start_success :
    (sampleSystem.layer.start successRequest).runFrom signedInServer.sessions =
      (.ok (some (⟨2⟩, newlySignedIn)), signedInServer.sessions) := by
  have htoken : sampleSystem.layer.cookie.token? successRequest = some ⟨2⟩ :=
    token?_of_value? value?_successRequest
  rw [SessionLayer.start, htoken]
  rfl

theorem telling_register :
    sampleSystem.telling (AccountPages.samplePost .register []) ⟨.empty, ⟨.empty, 0⟩⟩ =
      .news .login ⟨.success, AccountPages.registered⟩ := by
  change sampleSystem.pages.registerTelling _ _ = _
  rw [AccountPages.registerTelling, AccountPages.ofRequest_samplePost]
  simp only [signUp_sample]

theorem telling_login :
    sampleSystem.telling (AccountPages.samplePost .login cookieOne)
      registeredServer = .news .success ⟨.success, AccountPages.signedIn⟩ := by
  change sampleSystem.pages.loginTelling _ _ = _
  rw [AccountPages.loginTelling, AccountPages.ofRequest_samplePost]
  have hverdict : sampleSystem.pages.verdict ⟨"al", "pw"⟩ registeredServer.backing = .ok () := by
    rw [AccountPages.verdict, registeredServer, signIn_sample]
    rfl
  simp only [hverdict]

theorem telling_success :
    sampleSystem.telling successRequest signedInServer = .page .success none := by
  have hadmitted : sampleSystem.admitted? successRequest signedInServer.sessions =
      some ⟨⟨"al"⟩⟩ := by
    rw [admitted?, start_success]
    rfl
  have htelling : sampleSystem.telling successRequest signedInServer =
      (UserSystem.mk sampleSystem.pages).telling successRequest
        (sampleSystem.admitted? successRequest signedInServer.sessions) signedInServer.backing :=
    rfl
  rw [htelling, hadmitted]
  rfl

theorem unexpired_registered : MemorySessions.view.Unexpired registeredServer.sessions := by
  refine MemorySessions.unexpired_empty.of_sets ((MemorySessions.keeping 60).save_ok rfl) ?_
  intro kept hkept
  cases hkept
  decide

theorem unexpired_signedIn : MemorySessions.view.Unexpired signedInServer.sessions := by
  have hdropped := unexpired_registered.of_removed (MemorySessions.sets_drop _ ⟨1⟩)
  refine hdropped.of_sets ((MemorySessions.keeping 60).save_ok rfl) ?_
  intro kept hkept
  cases hkept
  decide

abbrev SampleBrowses : List (Telling × Response) → Server MemorySessions (Salted UserTable) →
    Option String → Prop :=
  sampleSystem.Browses (MemorySessions.keeping 60) fun _ => True

def registering : Telling × Response :=
  (.news .login ⟨.success, AccountPages.registered⟩,
    { Response.seeOther "/login" with setCookies := [SessionCookie.sample.issue ⟨1⟩] })

def signingIn : Telling × Response :=
  (.news .success ⟨.success, AccountPages.signedIn⟩,
    { Response.seeOther "/success" with setCookies := [SessionCookie.sample.issue ⟨2⟩] })

theorem browses_registering :
    SampleBrowses [registering] registeredServer (some (toString (⟨1⟩ : SessionToken))) := by
  have hstart : SampleBrowses [] ⟨.empty, ⟨.empty, 0⟩⟩ none := .start (by simp)
  have hturn := hstart.turn (.refl MemorySessions.unexpired_empty) trivial (.inr rfl) rfl
    serve_register_sample
  have hheld := SessionCookie.sample.heldAfter_issue none ⟨1⟩
  rw [telling_register] at hturn
  rw [← hheld]
  exact hturn

theorem browses_signingIn :
    SampleBrowses [signingIn, registering] signedInServer
      (some (toString (⟨2⟩ : SessionToken))) := by
  have hturn := browses_registering.turn (.refl unexpired_registered) trivial (.inr rfl)
    (value?_cookieOne .login) serve_login_sample
  have hheld := SessionCookie.sample.heldAfter_issue (some (toString (⟨1⟩ : SessionToken))) ⟨2⟩
  rw [telling_login] at hturn
  rw [← hheld]
  exact hturn

/-- A visitor who registers and signs in is shown both notices, in order, on the page that
follows. -/
theorem notices_shown_after_login :
    ∃ response server held,
      SampleBrowses [(.page .success none, response), signingIn, registering] server held ∧
      Telling.AnsweredBy Html.renderer
        [⟨.success, AccountPages.registered⟩, ⟨.success, AccountPages.signedIn⟩]
        (.page .success none) response := by
  have hserve : sampleSystem.app.serve successRequest ⟨3⟩ signedInServer =
      ((sampleSystem.app.serve successRequest ⟨3⟩ signedInServer).1,
        (sampleSystem.app.serve successRequest ⟨3⟩ signedInServer).2) := rfl
  have hturn := browses_signingIn.turn (.refl unexpired_signedIn) trivial (.inl rfl)
    value?_successRequest hserve
  rw [telling_success] at hturn
  have htold := notices_shown_once rfl renderer_total (MemorySessions.healthy 60) hturn
  exact ⟨_, _, _, hturn, htold.1.1⟩

end AccountService

end Gatehouse
