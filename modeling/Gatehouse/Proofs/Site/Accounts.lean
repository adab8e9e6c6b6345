import Gatehouse.Proofs.Attempt
import Gatehouse.Proofs.Http.Cookie
import Gatehouse.Proofs.Http.Handler
import Gatehouse.Site.Accounts

set_option autoImplicit false

/-!
# What the account pages do

Each page as a whole: its answer, the session it leaves and what it does to the accounts.
-/

namespace Gatehouse

namespace Session

/-- Nothing has changed about who is signed in. -/
def SameUser (before after : Session) : Prop :=
  after.authenticated = before.authenticated ∧ after.userId = before.userId

theorem SameUser.refl (session : Session) : session.SameUser session := ⟨rfl, rfl⟩

theorem SameUser.isAuthenticated {before after : Session} (h : before.SameUser after) :
    after.isAuthenticated = before.isAuthenticated := by
  rw [Session.isAuthenticated, Session.isAuthenticated, h.1, h.2]

theorem sameUser_takeFlashes (session : Session) : session.SameUser session.takeFlashes.2 :=
  ⟨rfl, rfl⟩

theorem takeFlashes_of_nil {session : Session} (h : session.flashes = []) :
    session.takeFlashes.2 = session := by
  rw [takeFlashes, ← h]

end Session

namespace AuthFlow

variable (flow : AuthFlow)

theorem sameUser_rejection (message : String) (session : Session) :
    session.SameUser (flow.rejection message session).2 := by
  rw [rejection]
  cases flow.feedback <;> exact ⟨rfl, rfl⟩

theorem sameUser_celebrate (message : String) (session : Session) :
    session.SameUser (flow.celebrate message session) := by
  rw [celebrate]
  cases flow.feedback <;> exact ⟨rfl, rfl⟩

variable {flow}

theorem rejection_of_inline (hfeedback : flow.feedback = .inline) (message : String)
    {session : Session} (h : session.flashes = []) :
    (flow.rejection message session).2 = session := by
  rw [rejection, hfeedback]
  exact Session.takeFlashes_of_nil h

theorem celebrate_of_inline (hfeedback : flow.feedback = .inline) (message : String)
    (session : Session) : flow.celebrate message session = session := by
  rw [celebrate, hfeedback]

theorem farewell_of_inline (hfeedback : flow.feedback = .inline) (session : Session) :
    flow.farewell session = .new := by
  rw [farewell, hfeedback]
  rfl

variable (flow)

theorem isAuthenticated_celebrate (message : String) (session : Session) :
    (flow.celebrate message session).isAuthenticated = session.isAuthenticated :=
  (flow.sameUser_celebrate message session).isAuthenticated

theorem isAuthenticated_farewell (session : Session) :
    (flow.farewell session).isAuthenticated = false := by
  rw [farewell]
  cases flow.feedback <;> rfl

end AuthFlow

namespace CredentialStore

variable {σ : Type}

/-- Who is signed in is the user that the store has found under the name. -/
theorem login_ok {store : CredentialStore σ} {session result : Session} {name : Username}
    {password : Password} {id : UserId} {state after : σ}
    (h : (store.login session name password).runFrom state = (.ok (id, result), after)) :
    ∃ (mid : σ) (user : User), (store.verify name password).runFrom state = (.ok true, mid) ∧
      (store.find name).runFrom mid = (.ok (some user), after) ∧
      id = user.id ∧ result = session.authenticate user.id := by
  rw [login] at h
  obtain ⟨matched, mid, hverify, hrest⟩ := Attempt.runFrom_bind_eq_ok.1 h
  cases matched with
  | false => cases hrest
  | true =>
    obtain ⟨found, last, hfind, hlast⟩ := Attempt.runFrom_bind_eq_ok.1 hrest
    cases found with
    | none => cases hlast
    | some user =>
      cases hlast
      exact ⟨mid, user, Attempt.runFrom_mapError_eq_ok.1 hverify,
        Attempt.runFrom_mapError_eq_ok.1 hfind, rfl, rfl⟩

/-- A property of the accounts that no call changes. -/
structure Preserves (store : CredentialStore σ) (p : σ → Prop) : Prop where
  find : ∀ name, (store.find name).Preserves p
  get : ∀ id, (store.get id).Preserves p
  isTaken : ∀ name, (store.isTaken name).Preserves p
  create : ∀ name password, (store.create name password).Preserves p
  verify : ∀ name password, (store.verify name password).Preserves p

namespace Preserves

variable {store : CredentialStore σ} {p : σ → Prop} (h : store.Preserves p)
include h

theorem login (session : Session) (name : Username) (password : Password) :
    (store.login session name password).Preserves p := by
  refine .bind (.mapError _ (h.verify name password)) fun matched => ?_
  cases matched with
  | false => exact .throw _
  | true =>
    refine .bind (.mapError _ (h.find name)) fun found => ?_
    cases found with
    | none => exact .throw _
    | some user => exact .pure _

theorem register (name : Username) (password : Password) :
    (store.register name password).Preserves p := by
  refine .bind (.mapError _ (h.isTaken name)) fun taken => ?_
  cases taken with
  | true => exact .throw _
  | false => exact .mapError _ (h.create name password)

theorem loadProfile (principal : Principal) : (store.loadProfile principal).Preserves p := by
  refine .bind (.mapError _ (h.get principal.userId)) fun found => ?_
  cases found with
  | none => exact .throw _
  | some user => exact .pure _

end Preserves

end CredentialStore

theorem CredentialsForm.parse_ok {form : CredentialsForm} {name : Username} {password : Password}
    (h : form.parse = .ok (name, password)) :
    form.username = name.text ∧ form.password = password.text := by
  rw [parse] at h
  cases hname : Username.ofText form.username with
  | error error =>
    rw [hname] at h
    cases h
  | ok valid =>
    rw [hname, Password.ofText] at h
    by_cases hempty : form.password = ""
    · rw [dif_pos hempty] at h
      cases h
    · rw [dif_neg hempty] at h
      cases h
      exact ⟨(Username.text_of_ofText hname).symm, rfl⟩

namespace AccountPages

variable {β : Type} (pages : AccountPages β)

theorem preserves_signIn {p : β → Prop} (h : pages.credentials.Preserves p)
    (form : CredentialsForm) (session : Session) : (pages.signIn form session).Preserves p := by
  rw [signIn]
  cases form.parse with
  | error error => exact .throw _
  | ok values => exact .bind (h.login session values.1 values.2) fun _ => .pure _

theorem preserves_signUp {p : β → Prop} (h : pages.credentials.Preserves p)
    (form : CredentialsForm) : (pages.signUp form).Preserves p := by
  rw [signUp]
  cases form.parse with
  | error error => exact .pure _
  | ok values =>
    refine .bind (.outcome (h.register values.1 values.2)) fun result => ?_
    rcases result with (error | error) | user
    · exact .pure _
    · exact .throw _
    · exact .pure _

theorem run_showFlashes (view : List Flash → View) (request : Request) (visit : Visit β) :
    (pages.showFlashes view).run request visit =
      ((Page.render (view visit.handle.session.flashes)).answer pages.renderer,
        { visit with handle := visit.handle.takeFlashes.2 }) := by
  simp [Handler.run, showFlashes, Attempt.runFrom_bind, Page.answer, SessionHandle.takeFlashes,
    Session.takeFlashes]

theorem run_logout (request : Request) (visit : Visit β) :
    pages.logout.run request visit =
      (.seeOther pages.flow.afterLogout.path,
        { visit with handle := visit.handle.update pages.flow.farewell }) := by
  simp [Handler.run, logout, Attempt.runFrom_bind, Page.respond, AppError.settle]

theorem runFrom_accept (route : Route) (message : String) (session : Session) (visit : Visit β) :
    (pages.accept route message session).runFrom visit =
      (.ok (.seeOther route.path),
        { visit with handle := visit.handle.commit (pages.flow.celebrate message session) }) := by
  simp [accept, Attempt.runFrom_bind, Page.respond]

theorem runFrom_reject (view : Option String → List Flash → View) (message : String)
    (session : Session) (visit : Visit β) :
    (pages.reject view message session).runFrom visit =
      ((Page.render (view (pages.flow.rejection message session).1.1
          (pages.flow.rejection message session).1.2)).respond pages.renderer,
        { visit with handle := visit.handle.commit (pages.flow.rejection message session).2 }) := by
  simp [reject, Attempt.runFrom_bind]

/-- What signing in with a form leads to: the answer and the handle afterwards. -/
def loginOutcome (handle : SessionHandle) : Except LoginError Session → Response × SessionHandle
  | .ok session =>
    (.seeOther pages.flow.afterLogin.path, handle.commit (pages.flow.celebrate signedIn session))
  | .error (.auth error) =>
    let rejected := pages.flow.rejection error.message handle.session
    ((Page.render (.login rejected.1.1 rejected.1.2)).answer pages.renderer,
      handle.commit rejected.2)
  | .error (.store _) => (.serverError, handle)

theorem run_login (request : Request) (visit : Visit β) :
    pages.login.run request visit =
      match CredentialsForm.ofRequest request with
      | .error error => (error.toResponse, visit)
      | .ok form =>
        let result := (pages.signIn form visit.handle.session).runFrom visit.backing
        ((pages.loginOutcome visit.handle result.1).1,
          ⟨(pages.loginOutcome visit.handle result.1).2, result.2⟩) := by
  rw [Handler.run, login, withForm]
  cases CredentialsForm.ofRequest request with
  | error error => rfl
  | ok form =>
    simp only [Attempt.runFrom_bind, Visit.runFrom_session, Attempt.runFrom_outcome,
      Visit.runFrom_inBacking]
    rcases (pages.signIn form visit.handle.session).runFrom visit.backing with
      ⟨(error | error) | session, backing⟩
    · simp only [runFrom_reject]
      rfl
    · rfl
    · simp only [runFrom_accept]
      rfl

def loginEndpoint : Endpoint β := .free (.getPost pages.loginForm pages.login)

theorem run_loginEndpoint {request : Request} (hmethod : request.method = "POST")
    (visit : Visit β) :
    pages.loginEndpoint.handle.run request visit = pages.login.run request visit := by
  simp [loginEndpoint, Endpoint.run_free, Methods.select, hmethod]

def registerOutcome (handle : SessionHandle) :
    Except AppError (Option String) → Response × SessionHandle
  | .ok none =>
    (.seeOther Route.login.path, handle.commit (pages.flow.celebrate registered handle.session))
  | .ok (some message) =>
    let rejected := pages.flow.rejection message handle.session
    ((Page.render (.register rejected.1.1 rejected.1.2)).answer pages.renderer,
      handle.commit rejected.2)
  | .error _ => (.serverError, handle)

theorem run_register (request : Request) (visit : Visit β) :
    pages.register.run request visit =
      match CredentialsForm.ofRequest request with
      | .error error => (error.toResponse, visit)
      | .ok form =>
        let result := (pages.signUp form).runFrom visit.backing
        ((pages.registerOutcome visit.handle result.1).1,
          ⟨(pages.registerOutcome visit.handle result.1).2, result.2⟩) := by
  rw [Handler.run, register, withForm]
  cases CredentialsForm.ofRequest request with
  | error error => rfl
  | ok form =>
    simp only [Attempt.runFrom_bind, Visit.runFrom_session, Visit.runFrom_inBacking]
    rcases (pages.signUp form).runFrom visit.backing with ⟨error | _ | message, backing⟩
    · rfl
    · simp only [runFrom_accept]
      rfl
    · simp only [runFrom_reject]
      rfl

/-- Signing in only adds who is signed in, and only for a form whose values are valid. -/
theorem signIn_ok {form : CredentialsForm} {session result : Session} {before after : β}
    (h : (pages.signIn form session).runFrom before = (.ok result, after)) :
    ∃ (name : Username) (password : Password) (mid : β) (user : User),
      form.parse = .ok (name, password) ∧
      (pages.credentials.verify name password).runFrom before = (.ok true, mid) ∧
      (pages.credentials.find name).runFrom mid = (.ok (some user), after) ∧
      result = session.authenticate user.id := by
  rw [signIn] at h
  cases hparse : form.parse with
  | error error =>
    rw [hparse] at h
    cases h
  | ok values =>
    obtain ⟨name, password⟩ := values
    rw [hparse] at h
    obtain ⟨⟨id, session'⟩, last, hlogin, hpure⟩ := Attempt.runFrom_bind_eq_ok.1 h
    cases hpure
    obtain ⟨mid, user, hverify, hfind, -, hresult⟩ := CredentialStore.login_ok hlogin
    exact ⟨name, password, mid, user, rfl, hverify, hfind, hresult⟩

def sampleGet (route : Route) : Request where
  method := "GET"
  target := { path := route.path }
  headers := [SessionCookie.sampleHeader]

/-- The form `username=al&password=pw`, with some cookies. -/
def samplePost (route : Route) (cookies : List Header) : Request where
  method := "POST"
  target := { path := route.path }
  headers := ⟨"content-type", "application/x-www-form-urlencoded"⟩ :: cookies
  body := [117, 115, 101, 114, 110, 97, 109, 101, 61, 97, 108, 38,
    112, 97, 115, 115, 119, 111, 114, 100, 61, 112, 119]

theorem ofRequest_samplePost (route : Route) (cookies : List Header) :
    CredentialsForm.ofRequest (samplePost route cookies) = .ok ⟨"al", "pw"⟩ := by
  have htype : (samplePost route cookies).plainValue? "content-type" =
      some "application/x-www-form-urlencoded" := by
    simp only [Request.plainValue?, Request.valuesOf, samplePost, List.filter_cons]
    cbv
  have hstarts : "application/x-www-form-urlencoded".startsWith
      "application/x-www-form-urlencoded" = true := by cbv
  have hpairs : Form.pairs (samplePost route cookies).body =
      [("username", "al"), ("password", "pw")] := by cbv
  have hsize : ¬ Form.maxSize < (samplePost route cookies).body.length := by
    simp [Form.maxSize, samplePost]
  rw [CredentialsForm.ofRequest, Form.ofRequest, htype]
  simp only [Option.any_some, hstarts, Bool.not_true, Bool.false_eq_true, if_false, hsize, hpairs]
  rfl

def sampleName : Username := ⟨"al", by decide⟩

theorem parse_samplePost :
    (CredentialsForm.mk "al" "pw").parse = .ok (sampleName, ⟨"pw", by decide⟩) := by cbv

end AccountPages

end Gatehouse
