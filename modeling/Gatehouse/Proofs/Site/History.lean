import Gatehouse.Proofs.Credentials.Memory
import Gatehouse.Proofs.Http.Cookie
import Gatehouse.Proofs.Http.Holders
import Gatehouse.Proofs.Session.Healthy
import Gatehouse.Proofs.Session.Memory
import Gatehouse.Proofs.Site.Serving

set_option autoImplicit false

/-!
# Who is signed in, told from the outside

A site that keeps everything in memory is watched from its start on. Whom its gate lets in is told
by the requests and the responses alone: the last login or logout that concerns a token decides, and
nothing else that any visitor does.
-/

namespace Gatehouse

structure Exchange where
  request : Request
  response : Response

instance (response : Response) (path : String) : Decidable (response.SendsTo path) :=
  inferInstanceAs (Decidable (_ ∧ _))

namespace Exchange

open AccountService (IsLogin IsLogout)

/-- The response gives the client a token. -/
def Issues (cookie : SessionCookie) (exchange : Exchange) (token : SessionToken) : Prop :=
  cookie.issue token ∈ exchange.response.setCookies

instance (cookie : SessionCookie) (exchange : Exchange) (token : SessionToken) :
    Decidable (exchange.Issues cookie token) :=
  inferInstanceAs (Decidable (_ ∈ _))

/-- Whom a login signs in, if it is answered with the page that follows. Ids are names here. -/
def signsIn? (flow : AuthFlow) (exchange : Exchange) : Option UserId :=
  if IsLogin exchange.request ∧ exchange.response.SendsTo flow.afterLogin.path then
    (CredentialsForm.ofRequest exchange.request).toOption.map fun form => ⟨form.username⟩
  else none

/-- Who is signed in under a token after some exchanges, of which the last comes first. A login
concerns the token that it is answered with, and the one that it presents if somebody is signed in
under it already; a logout concerns the token that it presents. -/
def signedIn? (cookie : SessionCookie) (flow : AuthFlow) (token : SessionToken) :
    List Exchange → Option UserId
  | [] => none
  | last :: earlier =>
    let before := signedIn? cookie flow token earlier
    if IsLogout last.request ∧ cookie.token? last.request = some token then none
    else
      match last.signsIn? flow with
      | some id =>
        if last.Issues cookie token ∨
            cookie.token? last.request = some token ∧ before.isSome = true then some id
        else before
      | none => before

end Exchange

/-- A site whose sessions and accounts live in the memory of its process. -/
structure MemoryService where
  site : AccountSite
  /-- How long sessions live, in seconds. -/
  ttl : UInt64
  cookie : SessionCookie
  policy : PasswordPolicy
  salts : Nat → Salt
  renderer : Renderer

abbrev MemoryServer := Server MemorySessions (Salted UserTable)

def MemoryServer.atTime (time : Nat) (server : MemoryServer) : MemoryServer :=
  { server with sessions := { server.sessions with now := time } }

namespace MemoryService

def service (host : MemoryService) : AccountService MemorySessions (Salted UserTable) where
  site := host.site
  layer := ⟨MemorySessions.store host.ttl, host.cookie⟩
  credentials := MemoryCredentials.store host.policy host.salts
  renderer := host.renderer

/-- What a server has come to by some exchanges, of which the last comes first. It has started with
nothing; no session expires before a request; and no fresh token is one that is stored. -/
inductive Reaches (host : MemoryService) : List Exchange → MemoryServer → Prop
  | start : Reaches host [] ⟨.empty, ⟨.empty, 0⟩⟩
  | serve {past : List Exchange} {server after : MemoryServer} {time : Nat} {request : Request}
      {fresh : SessionToken} {response : Response} (reaches : Reaches host past server)
      (method : request.method = "GET" ∨ request.method = "POST")
      (lasting : MemorySessions.view.Unexpired (server.atTime time).sessions)
      (unstored : server.sessions.stored? fresh = none)
      (serves : host.service.app.serve request fresh (server.atTime time) = (response, after)) :
      Reaches host (⟨request, response⟩ :: past) after

end MemoryService

namespace Session

theorem SameUser.holder?_eq {before after : Session} (h : before.SameUser after) :
    after.holder? = before.holder? := by
  rw [holder?, holder?, h.isAuthenticated, h.2]

end Session

theorem AuthFlow.holder?_farewell (flow : AuthFlow) (session : Session) :
    (flow.farewell session).holder? = none :=
  Session.holder?_eq_none_iff.2 (flow.isAuthenticated_farewell session)

theorem AuthFlow.holder?_celebrate (flow : AuthFlow) (message : String) (session : Session)
    (id : UserId) : (flow.celebrate message (session.authenticate id)).holder? = some id :=
  (flow.sameUser_celebrate message (session.authenticate id)).holder?_eq

namespace Exchange

open AccountService (IsLogin IsLogout)

variable {cookie : SessionCookie} {flow : AuthFlow} {exchange : Exchange}

theorem signsIn?_eq_none (h : ¬ (IsLogin exchange.request ∧
    exchange.response.SendsTo flow.afterLogin.path)) : exchange.signsIn? flow = none := by
  rw [signsIn?, if_neg h]

theorem isLogin_of_signsIn? {id : UserId} (h : exchange.signsIn? flow = some id) :
    IsLogin exchange.request := by
  rw [signsIn?] at h
  split at h
  · next hlogin => exact hlogin.1
  · cases h

/-- What an exchange means for the session that its handler was given, if it has left another
one. -/
inductive Verdict (flow : AuthFlow) (exchange : Exchange) (given left : Session) : Prop
  | spared (silent : exchange.signsIn? flow = none)
      (anonymous : IsLogout exchange.request → given.holder? = none)
      (same : left.holder? = given.holder?)
  | signedIn {id : UserId} (signs : exchange.signsIn? flow = some id)
      (holds : left.holder? = some id)
  | loggedOut (isLogout : IsLogout exchange.request) (ended : left.holder? = none)

section Cons

variable {past : List Exchange} {given left : Session} {change : CookieChange}
  {token : SessionToken} {after : Option UserId}

theorem signedIn?_of_silent (hsilent : exchange.signsIn? flow = none) :
    signedIn? cookie flow token (exchange :: past) =
      if IsLogout exchange.request ∧ cookie.token? exchange.request = some token then none
      else signedIn? cookie flow token past := by
  rw [signedIn?]
  simp only [hsilent]

theorem signedIn?_of_signsIn? {id : UserId} (hsigns : exchange.signsIn? flow = some id) :
    signedIn? cookie flow token (exchange :: past) =
      if exchange.Issues cookie token ∨ cookie.token? exchange.request = some token ∧
          (signedIn? cookie flow token past).isSome = true then some id
      else signedIn? cookie flow token past := by
  have hlogout : ¬ IsLogout exchange.request :=
    AccountService.not_isLogout_of_isLogin (isLogin_of_signsIn? hsigns)
  rw [signedIn?]
  simp only [hsigns, hlogout, false_and, if_false]

variable (hfate : SessionKeeping.Fate (cookie.token? exchange.request) given left change token
  (signedIn? cookie flow token past) after)
include hfate

theorem cons_of_spared (hsilent : exchange.signsIn? flow = none)
    (hanonymous : IsLogout exchange.request → given.holder? = none)
    (hsame : left.holder? = given.holder?)
    (hunstored : change = .issue token → signedIn? cookie flow token past = none) :
    signedIn? cookie flow token (exchange :: past) = after := by
  rw [signedIn?_of_silent hsilent]
  split
  · next hlogout =>
    have hnone := hanonymous hlogout.1
    cases hfate with
    | issued issues wasAnonymous holds => rw [holds, hsame, hnone]
    | stayed notIssued presents was holds noRise => rw [holds, hsame, hnone]
    | apart notIssued same unheld => rw [same, unheld hlogout.2]
  · cases hfate with
    | issued issues wasAnonymous holds => rw [holds, hsame, wasAnonymous, hunstored issues]
    | stayed notIssued presents was holds noRise => rw [holds, hsame, was]
    | apart notIssued same unheld => exact same.symm

theorem cons_of_signedIn {id : UserId} (hsigns : exchange.signsIn? flow = some id)
    (hleft : left.holder? = some id)
    (hissues : exchange.Issues cookie token ↔ change = .issue token) :
    signedIn? cookie flow token (exchange :: past) = after := by
  rw [signedIn?_of_signsIn? hsigns]
  cases hfate with
  | issued issues wasAnonymous holds => rw [if_pos (.inl (hissues.2 issues)), holds, hleft]
  | stayed notIssued presents was holds noRise =>
    have hsome : (signedIn? cookie flow token past).isSome = true := by
      cases hgiven : given.holder? with
      | none =>
        rw [noRise hgiven] at hleft
        cases hleft
      | some other => rw [was, hgiven, Option.isSome_some]
    rw [if_pos (.inr ⟨presents, hsome⟩), holds, hleft]
  | apart notIssued same unheld =>
    rw [if_neg, same]
    rintro (hissued | ⟨hpresents, hsome⟩)
    · exact notIssued (hissues.1 hissued)
    · rw [unheld hpresents] at hsome
      cases hsome

theorem cons_of_loggedOut (hlogout : IsLogout exchange.request) (hleft : left.holder? = none)
    (hunstored : change = .issue token → signedIn? cookie flow token past = none) :
    signedIn? cookie flow token (exchange :: past) = after := by
  have hsilent : exchange.signsIn? flow = none :=
    signsIn?_eq_none fun h => AccountService.not_isLogout_of_isLogin h.1 hlogout
  rw [signedIn?_of_silent hsilent]
  split
  · next hpresents =>
    cases hfate with
    | issued issues wasAnonymous holds => rw [holds, hleft]
    | stayed notIssued presents was holds noRise => rw [holds, hleft]
    | apart notIssued same unheld => rw [same, unheld hpresents.2]
  · next hpresents =>
    cases hfate with
    | issued issues wasAnonymous holds => rw [holds, hleft, hunstored issues]
    | stayed notIssued presents was holds noRise => exact absurd ⟨hlogout, presents⟩ hpresents
    | apart notIssued same unheld => exact same.symm

theorem signedIn?_cons (hverdict : Verdict flow exchange given left)
    (hissues : exchange.Issues cookie token ↔ change = .issue token)
    (hunstored : change = .issue token → signedIn? cookie flow token past = none) :
    signedIn? cookie flow token (exchange :: past) = after := by
  cases hverdict with
  | spared silent anonymous same => exact cons_of_spared hfate silent anonymous same hunstored
  | signedIn signs holds => exact cons_of_signedIn hfate signs holds hissues
  | loggedOut isLogout ended => exact cons_of_loggedOut hfate isLogout ended hunstored

end Cons

end Exchange

namespace MemoryService

open AccountService (IsLogin IsLogout)
open MemoryCredentials (Known)

variable {host : MemoryService} {request : Request} {fresh : SessionToken} {server : MemoryServer}

theorem known_of_keeps {before after : Salted UserTable} {id : UserId}
    (hkeeps : host.service.Keeps before after) (h : Known before id) : Known after id := by
  obtain ⟨name, rfl, hname⟩ := h
  exact ⟨name, rfl,
    hkeeps _ (MemoryCredentials.preserves_has host.policy host.salts name) hname⟩

section Handling

variable {visit : Visit (Salted UserTable)} {answer response : Response} {left : Session}
  {backing : Salted UserTable}

theorem verdict (heffect : host.service.Effect request visit answer left backing)
    (hmethod : request.method = "GET" ∨ request.method = "POST")
    (hknown : ∀ id, visit.handle.session.holder? = some id → Known visit.backing id)
    (hstatus : response.status = answer.status) (hlocation : response.location = answer.location) :
    Exchange.Verdict host.site.flow ⟨request, response⟩ visit.handle.session left := by
  cases heffect with
  | spared same unchanged failed anonymous =>
    refine .spared (Exchange.signsIn?_eq_none ?_) ?_ same.holder?_eq
    · rintro ⟨hlogin, hsends⟩
      exact failed hlogin (hlocation.symm.trans hsends.2)
    · exact fun hlogout => Session.holder?_eq_none_iff.2 (anonymous hlogout)
  | @signedIn form name password user mid _ isLogin reads parses verifies finds redirects =>
    refine .signedIn ?_ (AuthFlow.holder?_celebrate _ _ _ user.id)
    have hsends : response.SendsTo host.site.flow.afterLogin.path := by
      rw [Response.SendsTo, hstatus, hlocation, redirects]
      exact ⟨rfl, rfl⟩
    rw [Exchange.signsIn?, if_pos ⟨isLogin, hsends⟩, reads, (MemoryCredentials.find_ok finds).1,
      UserId.ofUsername, ← (CredentialsForm.parse_ok parses).1]
    rfl
  | loggedOut method path =>
    refine .loggedOut ⟨?_, path⟩ (AuthFlow.holder?_farewell _ _)
    rcases hmethod with hget | hpost
    · exact hget
    · exact absurd method (by rw [hpost]; decide)
  | @vanished id _ admits gone =>
    obtain ⟨name, rfl, hname⟩ := hknown id ((Session.check_eq_ok_iff_holder? _ _ _).1 admits)
    obtain ⟨user, hloads⟩ := MemoryCredentials.loadProfile_of_has host.policy host.salts hname
    cases hloads.symm.trans gone

theorem known_of_effect (heffect : host.service.Effect request visit answer left backing)
    (hkeeps : host.service.Keeps visit.backing backing)
    (hknown : ∀ id, visit.handle.session.holder? = some id → Known visit.backing id) {id : UserId}
    (hid : left.holder? = some id) : Known backing id := by
  cases heffect with
  | spared same =>
    rw [same.holder?_eq] at hid
    exact known_of_keeps hkeeps (hknown id hid)
  | @signedIn form name password user mid _ isLogin reads parses verifies finds =>
    rw [AuthFlow.holder?_celebrate, Option.some.injEq] at hid
    obtain ⟨hname, hhas⟩ := MemoryCredentials.find_ok finds
    exact ⟨name, hid.symm.trans hname, hhas⟩
  | loggedOut =>
    rw [AuthFlow.holder?_farewell] at hid
    cases hid
  | vanished => cases hid

end Handling

/-- The sessions of a server are what its history says, and all who are signed in have accounts. -/
structure Tracks (host : MemoryService) (past : List Exchange) (server : MemoryServer) : Prop where
  signedIn?_eq : ∀ token, Exchange.signedIn? host.cookie host.site.flow token past =
    (MemorySessions.keeping host.ttl).holder? server.sessions token
  known : ∀ token id, (MemorySessions.keeping host.ttl).holder? server.sessions token = some id →
    Known server.backing id

variable {past : List Exchange}

theorem Tracks.atTime (h : host.Tracks past server) (time : Nat) :
    host.Tracks past (server.atTime time) :=
  ⟨h.signedIn?_eq, h.known⟩

theorem holder?_of_unstored {sessions : MemorySessions} {token : SessionToken}
    (h : sessions.stored? token = none) :
    (MemorySessions.keeping host.ttl).holder? sessions token = none := by
  have hkept : (MemorySessions.keeping host.ttl).kept? sessions token = none :=
    (MemorySessions.view_kept? sessions token).trans (by rw [h, Option.map_none])
  rw [SessionKeeping.holder?_of_kept? hkept, Option.bind_none]

theorem issues_iff {change : CookieChange} {response : Response} {token : SessionToken}
    (hcookies : response.setCookies = host.service.layer.cookieHeaders change) :
    Exchange.Issues host.cookie ⟨request, response⟩ token ↔ change = .issue token := by
  rw [Exchange.Issues, hcookies]
  cases change with
  | none => simp [SessionLayer.cookieHeaders]
  | expire =>
    simp only [SessionLayer.cookieHeaders, List.mem_singleton, reduceCtorEq, iff_false]
    exact SessionCookie.issue_ne_expire
  | issue other =>
    simp only [SessionLayer.cookieHeaders, List.mem_singleton, CookieChange.issue.injEq]
    exact ⟨fun h => (SessionCookie.issue_inj h).symm, fun h => h ▸ rfl⟩

theorem Tracks.round (h : host.Tracks past server)
    (round : host.service.layer.Round (host.service.handler request) request fresh server)
    (hmethod : request.method = "GET" ∨ request.method = "POST")
    (hunexpired : MemorySessions.view.Unexpired server.sessions)
    (hunstored : server.sessions.stored? fresh = none) (allow : Option String) :
    host.Tracks (⟨request, { round.response with allow }⟩ :: past) round.serverAfter := by
  let keeping := MemorySessions.keeping host.ttl
  have hstarted := round.started keeping
  have hwritten := round.writtenBack keeping
  have hrun : (host.service.handler request).run request
      ⟨.new (SessionLayer.given round.stored), server.backing⟩ = (round.answer, round.visit) := rfl
  obtain ⟨hkeeps, left, hhandle, hanswer, heffect⟩ := host.service.does request
    ⟨.new (SessionLayer.given round.stored), server.backing⟩
  rw [hrun] at hkeeps hhandle hanswer heffect
  have hleft : round.visit.handle.session = left := by
    rw [hhandle, SessionHandle.session_commit]
  have hknown : ∀ id, (SessionLayer.given round.stored).holder? = some id →
      Known server.backing id := by
    intro id hid
    obtain ⟨token, -, hholder⟩ := hstarted.exists_of_holder? hunexpired hid
    exact h.known token id hholder
  have hfate := SessionKeeping.fate hunexpired hstarted hwritten
    (AccountService.session_of_unmodified hrun)
  rw [hleft] at hfate
  constructor
  · intro token
    have hverdict : Exchange.Verdict host.site.flow ⟨request, { round.response with allow }⟩
        (SessionLayer.given round.stored) left := verdict heffect hmethod hknown rfl rfl
    have hbefore := h.signedIn?_eq token
    refine Exchange.signedIn?_cons ?_ hverdict (issues_iff (round.setCookies_eq hanswer)) ?_
    · rw [hbefore]
      exact hfate token
    · intro hissue
      rw [hissue] at hwritten
      rw [hbefore, hwritten.issue_eq, holder?_of_unstored hunstored]
  · intro token id hid
    have hleftKnown : left.holder? = some id → Known round.visit.backing id :=
      known_of_effect heffect hkeeps hknown
    cases hfate token with
    | issued issues wasAnonymous holds => exact hleftKnown (holds.symm.trans hid)
    | stayed notIssued presents was holds noRise => exact hleftKnown (holds.symm.trans hid)
    | apart notIssued same unheld =>
      exact known_of_keeps hkeeps (h.known token id (same.symm.trans hid))

theorem exists_start (host : MemoryService) (request : Request) (sessions : MemorySessions) :
    ∃ stored loaded, (host.service.layer.start request).runFrom sessions = (.ok stored, loaded) ∧
      (MemorySessions.view.Unexpired sessions → loaded = sessions) := by
  rw [SessionLayer.start]
  cases host.service.layer.cookie.token? request with
  | none => exact ⟨none, sessions, rfl, fun _ => rfl⟩
  | some token =>
    refine ⟨_, (MemorySessions.load token sessions).2, rfl, fun hunexpired => ?_⟩
    rw [MemorySessions.load]
    cases hstored : sessions.stored? token with
    | none => rfl
    | some entry =>
      have hlive : MemorySessions.isLive sessions.now entry = true := by
        refine decide_eq_true (hunexpired token ⟨some entry.session, entry.expiresAt⟩ ?_)
        rw [MemorySessions.view_kept?, hstored, Option.map_some]
      simp only [hlive, if_true]

theorem Tracks.static (h : host.Tracks past server) {path : String}
    (hpath : assets.below? request.path = some path) (response : Response) :
    host.Tracks (⟨request, response⟩ :: past) server := by
  have hne : ∀ route : Route, request.path ≠ route.path := by
    intro route heq
    rw [heq, Route.below?_path] at hpath
    cases hpath
  have hlogout : ¬ IsLogout request := fun hlogout => hne .logout hlogout.2
  have hsilent : Exchange.signsIn? host.site.flow ⟨request, response⟩ = none :=
    Exchange.signsIn?_eq_none fun hlogin => hne .login hlogin.1.2
  refine ⟨fun token => ?_, h.known⟩
  rw [Exchange.signedIn?_of_silent hsilent, if_neg fun h => hlogout h.1]
  exact h.signedIn?_eq token

theorem tracks (hreaches : host.Reaches past server) : host.Tracks past server := by
  induction hreaches with
  | start => exact ⟨fun token => rfl, fun token id hid => by cases hid⟩
  | @serve past server _ time request fresh _ reaches method lasting unstored serves ih =>
    have harrived := ih.atTime time
    cases hpath : assets.below? request.path with
    | some path =>
      rw [AccountService.serve_static hpath] at serves
      cases serves
      exact harrived.static hpath _
    | none =>
      have hbody : ∀ status, request.dropsBody status = false := by
        rcases method with hget | hpost
        · exact AccountService.dropsBody_of_get hget
        · exact AccountService.dropsBody_of_post hpost
      obtain ⟨allow, hserve⟩ := host.service.serve_eq fresh (server.atTime time) hpath hbody
      have healthy : host.service.layer.store.Healthy fun _ => True :=
        MemorySessions.healthy host.ttl
      obtain ⟨round, -⟩ := SessionLayer.round_of_healthy healthy (host.service.handler request)
        request fresh (server.atTime time) trivial
      rw [hserve, round.serve_eq] at serves
      cases serves
      exact harrived.round round method lasting unstored allow

theorem admitted?_eq_some_iff {sessions : MemorySessions} {id : UserId}
    (hunexpired : MemorySessions.view.Unexpired sessions) :
    host.service.admitted? request sessions = some ⟨id⟩ ↔
      ∃ token, host.cookie.token? request = some token ∧
        (MemorySessions.keeping host.ttl).holder? sessions token = some id := by
  obtain ⟨stored, loaded, hstart, -⟩ := exists_start host request sessions
  have hstarted := SessionLayer.started (MemorySessions.keeping host.ttl) hstart
  have hcheck : host.service.admitted? request sessions = some ⟨id⟩ ↔
      (SessionLayer.given stored).holder? = some id := by
    rw [AccountService.admitted?, hstart, ← Session.check_eq_ok_iff_holder? {} _ ⟨id⟩]
    simp only
    cases SessionGate.check {} (SessionLayer.given stored) with
    | ok principal => simp [Except.toOption]
    | error route => simp [Except.toOption]
  rw [hcheck]
  constructor
  · exact hstarted.exists_of_holder? hunexpired
  · rintro ⟨token, hpresented, hholder⟩
    exact (hstarted.holder?_presented hunexpired hpresented).symm.trans hholder

/-- Whenever a page behind the gate is asked for, its handler runs for the user whom the history of
the token names. In every other case the visitor is sent to sign in, and nothing has changed. -/
theorem gate_follows_history (hreaches : host.Reaches past server) (request : Request)
    (fresh : SessionToken) (time : Nat) (hget : request.method = "GET") {route : Route}
    (hroute : route ∈ host.site.gatedRoutes) (hpath : request.path = route.path)
    (hlasting : MemorySessions.view.Unexpired (server.atTime time).sessions) :
    (∀ id, host.service.admitted? request (server.atTime time).sessions = some ⟨id⟩ ↔
      ∃ token, host.cookie.token? request = some token ∧
        Exchange.signedIn? host.cookie host.site.flow token past = some id) ∧
    ∃ handler, host.service.gated? request = some handler ∧
      host.service.app.serve request fresh (server.atTime time) =
        match host.service.admitted? request (server.atTime time).sessions with
        | some principal =>
          host.service.layer.serve (handler principal) request fresh (server.atTime time)
        | none => (.seeOther Route.login.path, server.atTime time) := by
  constructor
  · intro id
    rw [admitted?_eq_some_iff hlasting]
    simp only [(tracks hreaches).signedIn?_eq]
    rfl
  · obtain ⟨stored, loaded, hstart, hloaded⟩ :=
      exists_start host request (server.atTime time).sessions
    rw [hloaded hlasting] at hstart
    exact AccountService.serve_gated hget hroute hpath hstart

def sampleHost : MemoryService where
  site := .minesweeper ⟨9, 9, 10⟩
  ttl := 60
  cookie := .sample
  policy := .plaintext
  salts _ := ⟨List.replicate 16 0, rfl⟩
  renderer := ⟨fun _ => .ok ""⟩

def registered : MemoryServer := ⟨.empty, ⟨UserTable.empty.insert "al" "pw", 1⟩⟩

def signedIn : MemoryServer :=
  { registered with
    sessions := MemorySessions.empty.save 60 ⟨1⟩ (Session.new.authenticate ⟨"al"⟩) }

theorem start_samplePost (route : Route) (sessions : MemorySessions) :
    (sampleHost.service.layer.start (AccountPages.samplePost route [])).runFrom sessions =
      (.ok none, sessions) := by
  have htoken : sampleHost.service.layer.cookie.token? (AccountPages.samplePost route []) = none :=
    SessionCookie.token?_of_no_cookies rfl
  rw [SessionLayer.start, htoken]
  rfl

theorem serve_register :
    sampleHost.service.app.serve (AccountPages.samplePost .register []) ⟨1⟩
      (MemoryServer.atTime 0 ⟨.empty, ⟨.empty, 0⟩⟩) = (.seeOther "/login", registered) := by
  have hsign : (sampleHost.service.pages.signUp ⟨"al", "pw"⟩).runFrom ⟨.empty, 0⟩ =
      (.ok none, registered.backing) := by
    rw [AccountPages.signUp, AccountPages.parse_samplePost]
    rfl
  have hrun : (sampleHost.service.handler (AccountPages.samplePost .register [])).run
      (AccountPages.samplePost .register []) ⟨.new .new, ⟨.empty, 0⟩⟩ =
        (.seeOther "/login", ⟨.new .new, registered.backing⟩) := by
    change sampleHost.service.pages.register.run _ _ = _
    rw [AccountPages.run_register, AccountPages.ofRequest_samplePost]
    simp only [hsign]
    rfl
  rw [AccountService.serve_post rfl (.inr rfl) rfl,
    SessionLayer.serve_of_run (start_samplePost .register .empty) hrun]
  rfl

theorem serve_login :
    sampleHost.service.app.serve (AccountPages.samplePost .login []) ⟨1⟩
      (MemoryServer.atTime 0 registered) =
        ({ Response.seeOther "/" with setCookies := [SessionCookie.sample.issue ⟨1⟩] },
          signedIn) := by
  have hsign : (sampleHost.service.pages.signIn ⟨"al", "pw"⟩ .new).runFrom registered.backing =
      (.ok (Session.new.authenticate ⟨"al"⟩), registered.backing) := by
    rw [AccountPages.signIn, AccountPages.parse_samplePost]
    rfl
  have hrun : (sampleHost.service.handler (AccountPages.samplePost .login [])).run
      (AccountPages.samplePost .login []) ⟨.new .new, registered.backing⟩ =
        (.seeOther "/", ⟨(SessionHandle.new .new).commit (Session.new.authenticate ⟨"al"⟩),
          registered.backing⟩) := by
    change sampleHost.service.pages.login.run _ _ = _
    rw [AccountPages.run_login, AccountPages.ofRequest_samplePost]
    simp only [SessionHandle.new, hsign]
    rfl
  rw [AccountService.serve_post rfl (.inl rfl) rfl,
    SessionLayer.serve_of_run (start_samplePost .login .empty) hrun]
  rfl

def registers : Exchange :=
  ⟨AccountPages.samplePost .register [], .seeOther "/login"⟩

def signsIn : Exchange :=
  ⟨AccountPages.samplePost .login [],
    { Response.seeOther "/" with setCookies := [SessionCookie.sample.issue ⟨1⟩] }⟩

theorem unexpired_signedIn : MemorySessions.view.Unexpired signedIn.sessions := by
  refine MemorySessions.unexpired_empty.of_sets ((MemorySessions.keeping 60).save_ok rfl) ?_
  intro kept hkept
  cases hkept
  decide

theorem reaches_signedIn : sampleHost.Reaches [signsIn, registers] signedIn := by
  have hregistered : sampleHost.Reaches [registers] registered :=
    .serve .start (.inr rfl) MemorySessions.unexpired_empty rfl serve_register
  exact .serve hregistered (.inr rfl) MemorySessions.unexpired_empty rfl serve_login

theorem signedIn?_signsIn :
    Exchange.signedIn? sampleHost.cookie sampleHost.site.flow ⟨1⟩ [signsIn, registers] =
      some ⟨"al"⟩ := by
  have hlogin : signsIn.signsIn? sampleHost.site.flow = some ⟨"al"⟩ := by
    rw [Exchange.signsIn?, if_pos ⟨⟨rfl, rfl⟩, rfl, rfl⟩, signsIn,
      AccountPages.ofRequest_samplePost]
    rfl
  have hissues : signsIn.Issues sampleHost.cookie ⟨1⟩ := List.mem_singleton.2 rfl
  rw [Exchange.signedIn?_of_signsIn? hlogin, if_pos (.inl hissues)]

theorem gate_admits_visitor :
    sampleHost.service.admitted? (AccountPages.sampleGet .home) (signedIn.atTime 0).sessions =
      some ⟨⟨"al"⟩⟩ := by
  have hhome : Route.home ∈ sampleHost.site.gatedRoutes := List.mem_cons_self
  have hgate := (gate_follows_history reaches_signedIn (AccountPages.sampleGet .home) ⟨2⟩ 0 rfl
    hhome rfl unexpired_signedIn).1 ⟨"al"⟩
  exact hgate.2 ⟨⟨1⟩, SessionCookie.token?_sample rfl, signedIn?_signsIn⟩

end MemoryService

end Gatehouse
