import Gatehouse.Credentials.Scripted
import Gatehouse.Proofs.Http.Continuity
import Gatehouse.Proofs.Site.Accounts

set_option autoImplicit false

/-!
# Where a login puts its session

A login moves an anonymous visitor to a fresh token. A visitor who is signed in already stays under
the token that came with the request.
-/

namespace Gatehouse

namespace AccountPages

variable {σ β : Type} (pages : AccountPages β)

variable {pages}

theorem signedIn_of_location {request : Request} {visit : Visit β}
    (h : (pages.login.run request visit).1.location = some pages.flow.afterLogin.path) :
    (pages.login.run request visit).1 = .seeOther pages.flow.afterLogin.path ∧
      ∃ id : UserId, (pages.login.run request visit).2.handle =
        visit.handle.commit
          (pages.flow.celebrate signedIn (visit.handle.session.authenticate id)) := by
  rw [run_login] at h ⊢
  cases hform : CredentialsForm.ofRequest request with
  | error error =>
    rw [hform] at h
    simp [error.location_toResponse] at h
  | ok form =>
    simp only [hform] at h ⊢
    rcases hsign : (pages.signIn form visit.handle.session).runFrom visit.backing with
      ⟨(error | error) | session, backing⟩
    · simp [hsign, loginOutcome, Page.location_answer_render] at h
    · simp [hsign, loginOutcome, Response.serverError, Response.html] at h
    · obtain ⟨-, -, -, user, -, -, -, hsession⟩ := pages.signIn_ok hsign
      exact ⟨rfl, user.id, by rw [loginOutcome, hsession]⟩

end AccountPages

/-- A session is stored under a fresh token, the client is given that token, and the one it has
presented stands for nothing any more. -/
structure SessionLayer.MovesTo {σ : Type} (layer : SessionLayer σ)
    (keeping : SessionKeeping layer.store) (request : Request) (fresh : SessionToken)
    (response : Response) (before after : σ) (session : Session) : Prop where
  stored : keeping.kept? after fresh =
    some ⟨some session, keeping.expiry (keeping.now before)⟩
  issued : response.setCookies = [layer.cookie.issue fresh]
  left : ∀ token, layer.cookie.token? request = some token → keeping.live? after token = none

namespace SessionKeeping

variable {σ : Type} {layer : SessionLayer σ} {keeping : SessionKeeping layer.store}
  {state mid after : σ} {request : Request} {fresh : SessionToken} {handle : SessionHandle}
  {stored : Option StoredSession} {change : CookieChange} {response : Response}

theorem movesTo_of_rise (hstarted : keeping.Started state (layer.cookie.token? request) stored mid)
    (hwritten : keeping.WrittenBack mid fresh handle stored change after)
    (hunpresented : layer.cookie.token? request ≠ some fresh)
    (hmodified : handle.modified = true)
    (hbefore : (SessionLayer.given stored).isAuthenticated = false)
    (hafter : handle.session.isAuthenticated = true)
    (hresponse : response.setCookies = layer.cookieHeaders change) :
    layer.MovesTo keeping request fresh response state after handle.session := by
  have hne : ∀ token, layer.cookie.token? request = some token → token ≠ fresh := by
    rintro token hpresented rfl
    exact hunpresented hpresented
  cases hwritten with
  | unchanged modified =>
    rw [hmodified] at modified
    cases modified
  | unneeded modified empty => exact absurd empty (Session.ne_new_of_isAuthenticated hafter)
  | ended modified empty sets => exact absurd empty (Session.ne_new_of_isAuthenticated hafter)
  | kept modified nonempty noRise sets =>
    rw [noRise hbefore] at hafter
    cases hafter
  | begun modified nonempty sets =>
    refine ⟨?_, hresponse, fun token hpresented => ?_⟩
    · rw [sets.kept?_self, hstarted.now_eq]
    · rw [hpresented] at hstarted
      exact (sets.live?_eq (hne token hpresented)).trans hstarted.live?_none
  | moved modified wasAnonymous isAuthenticated removes sets =>
    refine ⟨?_, hresponse, fun token hpresented => ?_⟩
    · rw [sets.kept?_self, removes.now_eq, hstarted.now_eq]
    · have hlive := sets.live?_eq (hne token hpresented)
      rw [hpresented] at hstarted
      cases hstarted with
      | found live steady => exact hlive.trans removes.live?_self_none

theorem change_of_authenticated
    (hwritten : keeping.WrittenBack mid fresh handle stored change after)
    (hbefore : (SessionLayer.given stored).isAuthenticated = true)
    (hafter : handle.session.isAuthenticated = true) : change = .none := by
  cases hwritten with
  | unchanged modified => rfl
  | kept modified nonempty noRise sets => rfl
  | unneeded modified empty => cases hbefore
  | begun modified nonempty sets => cases hbefore
  | ended modified empty sets => exact absurd empty (Session.ne_new_of_isAuthenticated hafter)
  | moved modified wasAnonymous isAuthenticated removes sets =>
    exact absurd (wasAnonymous.symm.trans hbefore) Bool.false_ne_true

end SessionKeeping

namespace AccountPages

variable {σ β : Type} {pages : AccountPages β}

theorem handle_of_login {layer : SessionLayer σ} {request : Request} {fresh : SessionToken}
    {server : Server σ β} (hmethod : request.method = "POST")
    (round : layer.Round pages.loginEndpoint.handle request fresh server)
    (hlocation : round.response.location = some pages.flow.afterLogin.path) :
    round.answer.setCookies = [] ∧ ∃ id : UserId, round.visit.handle =
      (SessionHandle.new (SessionLayer.given round.stored)).commit
        (pages.flow.celebrate signedIn ((SessionLayer.given round.stored).authenticate id)) := by
  simp only [SessionLayer.Round.response, SessionLayer.settle, SessionLayer.Round.answer,
    run_loginEndpoint pages hmethod] at hlocation
  simp only [SessionLayer.Round.answer, SessionLayer.Round.visit, run_loginEndpoint pages hmethod]
  obtain ⟨hanswer, hhandle⟩ := signedIn_of_location hlocation
  rw [hanswer]
  exact ⟨rfl, hhandle⟩

/-- A login that is sent on to its page moves the session if, and only if, the visitor was not
signed in before. -/
theorem login_moves_iff {layer : SessionLayer σ} (keeping : SessionKeeping layer.store)
    {request : Request} {fresh : SessionToken} {server next : Server σ β} {response : Response}
    (hmethod : request.method = "POST")
    (hserve : layer.serve pages.loginEndpoint.handle request fresh server = (response, next))
    (hredirect : response.SendsTo pages.flow.afterLogin.path)
    (hunpresented : layer.cookie.token? request ≠ some fresh) :
    (∃ id : UserId, layer.MovesTo keeping request fresh response server.sessions next.sessions
      (pages.flow.celebrate signedIn
        ((keeping.session server.sessions (layer.cookie.token? request)).authenticate id))) ↔
      (keeping.session server.sessions (layer.cookie.token? request)).isAuthenticated = false := by
  have hfailed : response ≠ .serverError := by
    rintro rfl
    cases hredirect.1
  obtain ⟨round, rfl, rfl⟩ := SessionLayer.round_of_serve hserve hfailed
  have hstarted := round.started keeping
  have hwritten := round.writtenBack keeping
  have hgiven := SessionKeeping.given_of_started hstarted
  obtain ⟨hplain, id, hhandle⟩ := handle_of_login hmethod round hredirect.2
  have hcookies := round.setCookies_eq hplain
  have hsession : round.visit.handle.session = pages.flow.celebrate signedIn
      ((SessionLayer.given round.stored).authenticate id) := by
    rw [hhandle, SessionHandle.session_commit]
  have hafter : round.visit.handle.session.isAuthenticated = true := by
    rw [hsession, AuthFlow.isAuthenticated_celebrate]
    rfl
  rw [← hgiven]
  constructor
  · rintro ⟨_, hmoves⟩
    by_contra hbefore
    rw [Bool.not_eq_false] at hbefore
    have hissued := hmoves.issued
    rw [hcookies, SessionKeeping.change_of_authenticated hwritten hbefore hafter] at hissued
    cases hissued
  · intro hbefore
    have hchanged : round.visit.handle.modified = true := by
      have hne : SessionLayer.given round.stored ≠ round.visit.handle.session := by
        intro he
        rw [← he, hbefore] at hafter
        cases hafter
      rw [hhandle, SessionHandle.modified_commit, ← hsession]
      simpa [SessionHandle.new] using hne
    have hmoves := SessionKeeping.movesTo_of_rise hstarted hwritten hunpresented hchanged hbefore
      hafter hcookies
    rw [hsession] at hmoves
    exact ⟨id, hmoves⟩

def openPages : AccountPages Unit where
  credentials := ScriptedCredentials.store
    { verify := .ok true, find := .ok (some (.named sampleName "pw")) }
  renderer := ⟨fun _ => .ok ""⟩
  flow := .minesweeper

def sampleLayer : SessionLayer MemorySessions := ⟨MemorySessions.store 60, .sample⟩

/-- A server with one session, which belongs to another user. -/
def occupied : Server MemorySessions Unit :=
  ⟨MemorySessions.empty.put ⟨1⟩ ⟨Session.new.authenticate ⟨"bo"⟩, 9⟩, ()⟩

def loginAt (cookies : List Header) : Response × Server MemorySessions Unit :=
  sampleLayer.serve openPages.loginEndpoint.handle (samplePost .login cookies) ⟨2⟩ occupied

theorem loginAt_eq {cookies : List Header} {stored : Option StoredSession}
    {loaded : MemorySessions}
    (hstart : (sampleLayer.start (samplePost .login cookies)).runFrom occupied.sessions =
      (.ok stored, loaded)) :
    loginAt cookies =
      let written := (sampleLayer.writeBack stored ⟨2⟩
        ((SessionHandle.new (SessionLayer.given stored)).commit
          ((SessionLayer.given stored).authenticate ⟨"al"⟩))).runFrom loaded
      (sampleLayer.settle (.seeOther "/") written.1, ⟨written.2, ()⟩) := by
  have hsign : ∀ session : Session,
      (openPages.signIn ⟨"al", "pw"⟩ session).runFrom () =
        (.ok (session.authenticate ⟨"al"⟩), ()) := by
    intro session
    rw [signIn, parse_samplePost]
    rfl
  have hmethod : (samplePost .login cookies).method = "POST" := rfl
  rw [loginAt, SessionLayer.serve, hstart]
  simp only [SessionLayer.finish, run_loginEndpoint _ hmethod, run_login,
    ofRequest_samplePost, SessionHandle.new, occupied, hsign]
  rfl

theorem token?_newcomer : sampleLayer.cookie.token? (samplePost .login []) = none :=
  SessionCookie.token?_of_no_cookies rfl

theorem loginAt_newcomer : (loginAt []).1.SendsTo "/" := by
  have hstart : (sampleLayer.start (samplePost .login [])).runFrom occupied.sessions =
      (.ok none, occupied.sessions) := by
    rw [SessionLayer.start, token?_newcomer]
    rfl
  rw [loginAt_eq hstart]
  exact ⟨rfl, rfl⟩

theorem login_moves_newcomer :
    ∃ id : UserId, sampleLayer.MovesTo (MemorySessions.keeping 60) (samplePost .login []) ⟨2⟩
      (loginAt []).1 occupied.sessions (loginAt []).2.sessions
      (openPages.flow.celebrate signedIn (Session.new.authenticate id)) := by
  have hserve : sampleLayer.serve openPages.loginEndpoint.handle (samplePost .login []) ⟨2⟩
      occupied =
      ((loginAt []).1, (loginAt []).2) := rfl
  have hmoves := login_moves_iff (MemorySessions.keeping 60) rfl hserve loginAt_newcomer
    (by simp [token?_newcomer])
  rw [token?_newcomer] at hmoves
  exact hmoves.2 rfl

def occupiedCookie : List Header := [SessionCookie.sampleHeader]

theorem token?_occupied :
    sampleLayer.cookie.token? (samplePost .login occupiedCookie) = some ⟨1⟩ :=
  SessionCookie.token?_sample rfl

theorem loginAt_occupied :
    loginAt occupiedCookie = (.seeOther "/",
      ⟨MemorySessions.save 60 ⟨1⟩ (Session.new.authenticate ⟨"al"⟩) occupied.sessions, ()⟩) := by
  have hstart : (sampleLayer.start (samplePost .login occupiedCookie)).runFrom occupied.sessions =
      (.ok (some (⟨1⟩, Session.new.authenticate ⟨"bo"⟩)), occupied.sessions) := by
    rw [SessionLayer.start, token?_occupied]
    rfl
  rw [loginAt_eq hstart]
  rfl

/-- Whoever signs in over the session of somebody else stays under the token of that session. -/
theorem login_stays_on_session :
    (loginAt occupiedCookie).1.SendsTo openPages.flow.afterLogin.path ∧
      sampleLayer.cookie.token? (samplePost .login occupiedCookie) = some ⟨1⟩ ∧
      (MemorySessions.keeping 60).session? (loginAt occupiedCookie).2.sessions ⟨1⟩ =
        some (Session.new.authenticate ⟨"al"⟩) ∧
      ∀ session : Session, ¬ sampleLayer.MovesTo (MemorySessions.keeping 60)
        (samplePost .login occupiedCookie) ⟨2⟩ (loginAt occupiedCookie).1 occupied.sessions
        (loginAt occupiedCookie).2.sessions session := by
  rw [loginAt_occupied]
  refine ⟨⟨rfl, rfl⟩, token?_occupied, rfl, fun session hmoves => ?_⟩
  cases hmoves.issued

end AccountPages

end Gatehouse
