import Gatehouse.Proofs.Http.SessionLayer
import Gatehouse.Proofs.Keyed
import Gatehouse.Proofs.Site.Accounts
import Gatehouse.Site.App

set_option autoImplicit false

/-!
# The two sites with accounts

What any request to either site can do to the session of its visitor. Only a login makes a session
authenticated, and only signing out, or a user who is gone, ends one.
-/

namespace Gatehouse

inductive AccountSite where
  | minesweeper (board : Board)
  | userSystem

/-- One of the two sites, with all that it works with. -/
structure AccountService (σ β : Type) where
  site : AccountSite
  layer : SessionLayer σ
  credentials : CredentialStore β
  renderer : Renderer

namespace AccountSite

def flow : AccountSite → AuthFlow
  | minesweeper _ => .minesweeper
  | userSystem => .userSystem

end AccountSite

namespace AccountService

variable {σ β : Type} (service : AccountService σ β)

def app : App σ β :=
  match service.site with
  | .minesweeper board => .minesweeper service.layer service.credentials service.renderer board
  | .userSystem => .userSystem service.layer service.credentials service.renderer

def pages : AccountPages β :=
  ⟨service.credentials, service.renderer, service.site.flow⟩

def endpoints : List (String × Endpoint β) :=
  match service.site with
  | .minesweeper board => (Minesweeper.mk service.pages board).endpoints
  | .userSystem => (UserSystem.mk service.pages).endpoints

theorem app_endpoints : service.app.endpoints = service.endpoints := by
  obtain ⟨site, layer, credentials, renderer⟩ := service
  cases site <;> rfl

theorem app_sessions : service.app.sessions = some service.layer := by
  obtain ⟨site, layer, credentials, renderer⟩ := service
  cases site <;> rfl

theorem app_openPaths : service.app.openPaths = [] := by
  obtain ⟨site, layer, credentials, renderer⟩ := service
  cases site <;> rfl

def handler (request : Request) : Handler (Visit β) :=
  match service.endpoints.lookup request.path with
  | some endpoint => endpoint.handle
  | none => App.unknownPath

end AccountService

namespace Minesweeper

variable {β : Type} (site : Minesweeper β)

theorem run_showUser (view : User → View) (principal : Principal) (request : Request)
    (visit : Visit β) :
    (site.showUser view principal).run request visit =
      match (site.accounts.credentials.loadProfile principal).runFrom visit.backing with
      | (.ok user, backing) =>
        ((Page.render (view user)).answer site.accounts.renderer, { visit with backing })
      | (.error .unknownUser, backing) =>
        (.seeOther Route.login.path, ⟨visit.handle.commit .new, backing⟩)
      | (.error (.store _), backing) => (.serverError, { visit with backing }) := by
  simp only [Handler.run, showUser, Attempt.runFrom_bind, Attempt.runFrom_outcome,
    Visit.runFrom_inBacking]
  rcases (site.accounts.credentials.loadProfile principal).runFrom visit.backing with
    ⟨(_ | error) | user, backing⟩
  · simp only [Attempt.runFrom_bind, Visit.runFrom_update, Page.runFrom_send]
    rfl
  · rfl
  · simp only [Page.runFrom_send]
    rfl

end Minesweeper

namespace AccountService

variable {σ β : Type} (service : AccountService σ β)

def IsLogin (request : Request) : Prop :=
  request.method = "POST" ∧ request.path = Route.login.path

def IsLogout (request : Request) : Prop :=
  request.method = "GET" ∧ request.path = Route.logout.path

def IsRegister (request : Request) : Prop :=
  request.method = "POST" ∧ request.path = Route.register.path

instance (request : Request) : Decidable (IsLogin request) :=
  inferInstanceAs (Decidable (_ ∧ _))

instance (request : Request) : Decidable (IsLogout request) :=
  inferInstanceAs (Decidable (_ ∧ _))

instance (request : Request) : Decidable (IsRegister request) :=
  inferInstanceAs (Decidable (_ ∧ _))

/-- The ways in which a handler can leave the session of its visitor. -/
inductive Effect (request : Request) (visit : Visit β) (answer : Response) : Session → β → Prop
  /-- Who is signed in stays signed in, and nobody else. Where no notices are used, nothing changes
  at all. -/
  | spared {session : Session} {backing : β} (same : visit.handle.session.SameUser session)
      (unchanged : service.site.flow.feedback = .inline → visit.handle.session.flashes = [] →
        session = visit.handle.session)
      (failed : IsLogin request → answer.location ≠ some service.site.flow.afterLogin.path)
      (anonymous : IsLogout request → visit.handle.session.isAuthenticated = false) :
      Effect request visit answer session backing
  | signedIn {form : CredentialsForm} {name : Username} {password : Password} {user : User}
      {mid backing : β} (isLogin : IsLogin request)
      (reads : CredentialsForm.ofRequest request = .ok form)
      (parses : form.parse = .ok (name, password))
      (verifies : (service.credentials.verify name password).runFrom visit.backing =
        (.ok true, mid))
      (finds : (service.credentials.find name).runFrom mid = (.ok (some user), backing))
      (redirects : answer = .seeOther service.site.flow.afterLogin.path) :
      Effect request visit answer
        (service.site.flow.celebrate AccountPages.signedIn
          (visit.handle.session.authenticate user.id)) backing
  | loggedOut (method : request.method = "GET" ∨ request.method = "HEAD")
      (path : request.path = Route.logout.path) :
      Effect request visit answer (service.site.flow.farewell visit.handle.session) visit.backing
  | vanished {id : UserId} {backing : β}
      (admits : SessionGate.check {} visit.handle.session = .ok ⟨id⟩)
      (gone : (service.credentials.loadProfile ⟨id⟩).runFrom visit.backing =
        (.error .unknownUser, backing)) :
      Effect request visit answer .new backing

/-- What no call of the credential store changes has not changed. -/
def Keeps (before after : β) : Prop :=
  ∀ p, service.credentials.Preserves p → p before → p after

/-- A handler makes one step on the session at most, touches the accounts only through their store,
and says nothing about tokens. -/
def Does (request : Request) (visit : Visit β) (result : Response × Visit β) : Prop :=
  service.Keeps visit.backing result.2.backing ∧
    ∃ session, result.2.handle = visit.handle.commit session ∧ result.1.setCookies = [] ∧
      service.Effect request visit result.1 session result.2.backing

variable {service} {request : Request} {visit : Visit β} {answer : Response}

@[simp] theorem pages_credentials (service : AccountService σ β) :
    service.pages.credentials = service.credentials := rfl

@[simp] theorem pages_flow (service : AccountService σ β) :
    service.pages.flow = service.site.flow := rfl

theorem keeps_refl (backing : β) : service.Keeps backing backing := fun _ _ h => h

theorem keeps_of_run {ε α : Type} {attempt : Attempt ε β α} {before after : β}
    {result : Except ε α} (h : ∀ p, service.credentials.Preserves p → attempt.Preserves p)
    (hrun : attempt.runFrom before = (result, after)) : service.Keeps before after := by
  intro p hp hbefore
  have hafter := h p hp before hbefore
  rwa [hrun] at hafter

theorem does_spare {backing : β} (hkeeps : service.Keeps visit.backing backing)
    (hcookies : answer.setCookies = [])
    (hfailed : IsLogin request → answer.location ≠ some service.site.flow.afterLogin.path)
    (hanonymous : IsLogout request → visit.handle.session.isAuthenticated = false) :
    service.Does request visit (answer, ⟨visit.handle, backing⟩) :=
  ⟨hkeeps, visit.handle.session, (SessionHandle.commit_session _).symm, hcookies,
    .spared (.refl _) (fun _ _ => rfl) hfailed hanonymous⟩

theorem does_showFlashes (view : List Flash → View)
    (hpath : request.path ≠ Route.logout.path) :
    service.Does request visit ((service.pages.showFlashes view).run request visit) := by
  rw [AccountPages.run_showFlashes]
  refine ⟨keeps_refl _, visit.handle.session.takeFlashes.2, rfl, Page.setCookies_answer _ _, ?_⟩
  refine .spared (Session.sameUser_takeFlashes _) (fun _ => Session.takeFlashes_of_nil) ?_
    (fun hlogout => absurd hlogout.2 hpath)
  intro _
  rw [Page.location_answer_render]
  simp

theorem not_isLogout_of_isLogin (h : IsLogin request) : ¬ IsLogout request := by
  intro hlogout
  have hpaths := h.2.symm.trans hlogout.2
  revert hpaths
  decide

theorem does_login (hlogin : IsLogin request) :
    service.Does request visit (service.pages.login.run request visit) := by
  have hlogout : IsLogout request → visit.handle.session.isAuthenticated = false :=
    fun h => absurd h (not_isLogout_of_isLogin hlogin)
  rw [AccountPages.run_login]
  cases hform : CredentialsForm.ofRequest request with
  | error error =>
    refine does_spare (keeps_refl _) error.setCookies_toResponse (fun _ => ?_) hlogout
    rw [error.location_toResponse]
    simp
  | ok form =>
    simp only
    rcases hsign : (service.pages.signIn form visit.handle.session).runFrom visit.backing with
      ⟨result, backing⟩
    have hkeeps : service.Keeps visit.backing backing :=
      keeps_of_run (fun p hp => service.pages.preserves_signIn hp form _) hsign
    rcases result with (error | error) | session
    · refine ⟨hkeeps, _, rfl, Page.setCookies_answer _ _, ?_⟩
      refine .spared (AuthFlow.sameUser_rejection _ _ _)
        (fun h => AuthFlow.rejection_of_inline h _) (fun _ => ?_) hlogout
      rw [AccountPages.loginOutcome, Page.location_answer_render]
      simp
    · refine does_spare hkeeps rfl (fun _ => ?_) hlogout
      simp [AccountPages.loginOutcome, Response.serverError, Response.html]
    · obtain ⟨name, password, mid, user, hparse, hverify, hfind, hsession⟩ :=
        service.pages.signIn_ok hsign
      subst hsession
      exact ⟨hkeeps, _, rfl, rfl, .signedIn hlogin hform hparse hverify hfind rfl⟩

theorem does_register (hpath : request.path = Route.register.path) :
    service.Does request visit (service.pages.register.run request visit) := by
  have hlogin : ¬ IsLogin request := by
    rintro ⟨-, hlogin⟩
    rw [hpath] at hlogin
    revert hlogin
    decide
  have hlogout : ¬ IsLogout request := by
    rintro ⟨-, hlogout⟩
    rw [hpath] at hlogout
    revert hlogout
    decide
  rw [AccountPages.run_register]
  cases CredentialsForm.ofRequest request with
  | error error =>
    exact does_spare (keeps_refl _) error.setCookies_toResponse (fun h => absurd h hlogin)
      (fun h => absurd h hlogout)
  | ok form =>
    simp only
    rcases hsign : (service.pages.signUp form).runFrom visit.backing with ⟨result, backing⟩
    have hkeeps : service.Keeps visit.backing backing :=
      keeps_of_run (fun p hp => service.pages.preserves_signUp hp form) hsign
    rcases result with error | _ | message
    · exact does_spare hkeeps rfl (fun h => absurd h hlogin) (fun h => absurd h hlogout)
    · exact ⟨hkeeps, _, rfl, rfl, .spared (AuthFlow.sameUser_celebrate _ _ _)
        (fun h _ => AuthFlow.celebrate_of_inline h _ _) (fun h => absurd h hlogin)
        (fun h => absurd h hlogout)⟩
    · exact ⟨hkeeps, _, rfl, Page.setCookies_answer _ _, .spared (AuthFlow.sameUser_rejection _ _ _)
        (fun h => AuthFlow.rejection_of_inline h _) (fun h => absurd h hlogin)
        (fun h => absurd h hlogout)⟩

theorem does_logout (hmethod : request.method = "GET" ∨ request.method = "HEAD")
    (hpath : request.path = Route.logout.path) :
    service.Does request visit (service.pages.logout.run request visit) := by
  rw [AccountPages.run_logout]
  exact ⟨keeps_refl _, service.site.flow.farewell visit.handle.session, rfl, rfl,
    .loggedOut hmethod hpath⟩

theorem does_showUser {board : Board} (view : User → View) {id : UserId}
    (hadmits : SessionGate.check {} visit.handle.session = .ok ⟨id⟩)
    (hpath : request.path ≠ Route.logout.path) :
    service.Does request visit
      (((Minesweeper.mk service.pages board).showUser view ⟨id⟩).run request visit) := by
  have hlogout : IsLogout request → visit.handle.session.isAuthenticated = false :=
    fun h => absurd h.2 hpath
  rw [Minesweeper.run_showUser]
  simp only [pages_credentials]
  rcases hprofile : (service.credentials.loadProfile ⟨id⟩).runFrom visit.backing with
    ⟨result, backing⟩
  have hkeeps : service.Keeps visit.backing backing :=
    keeps_of_run (fun p hp => hp.loadProfile ⟨id⟩) hprofile
  rcases result with (_ | error) | user
  · exact ⟨hkeeps, .new, rfl, rfl, .vanished hadmits hprofile⟩
  · exact does_spare hkeeps rfl (by simp [Response.serverError, Response.html]) hlogout
  · exact does_spare hkeeps (Page.setCookies_answer _ _) (by simp [Page.location_answer_render])
      hlogout

theorem does_free {methods : Methods (Handler (Visit β))}
    (hselected : ∀ handler, methods.select request.method = some handler →
      service.Does request visit (handler.run request visit)) :
    service.Does request visit ((Endpoint.free methods).handle.run request visit) := by
  rw [Endpoint.run_free]
  cases hselect : methods.select request.method with
  | some handler => exact hselected handler hselect
  | none =>
    refine does_spare (keeps_refl _) rfl (by simp [Response.notAllowed]) (fun hlogout => ?_)
    rw [hlogout.1] at hselect
    exact absurd hselect methods.select_get_ne_none

theorem does_gated {methods : Methods (Principal → Handler (Visit β))}
    (hpath : request.path ≠ Route.login.path)
    (hselected : ∀ id handler, SessionGate.check {} visit.handle.session = .ok ⟨id⟩ →
      methods.select request.method = some handler →
        service.Does request visit ((handler ⟨id⟩).run request visit)) :
    service.Does request visit ((Endpoint.gated {} methods).handle.run request visit) := by
  have hlogin : ¬ IsLogin request := fun h => hpath h.2
  rw [Endpoint.run_gated]
  cases hcheck : SessionGate.check {} visit.handle.session with
  | error route =>
    refine does_spare (keeps_refl _) rfl (fun h => absurd h hlogin) (fun _ => ?_)
    cases hauthenticated : visit.handle.session.isAuthenticated with
    | false => rfl
    | true =>
      obtain ⟨principal, hok⟩ := (SessionGate.check_isOk_iff {} _).2 hauthenticated
      rw [hcheck] at hok
      cases hok
  | ok principal =>
    simp only
    cases hselect : methods.select request.method with
    | some handler => exact hselected principal.userId handler hcheck hselect
    | none =>
      refine does_spare (keeps_refl _) rfl (by simp [Response.notAllowed]) (fun hlogout => ?_)
      rw [hlogout.1] at hselect
      exact absurd hselect methods.select_get_ne_none

theorem does_loginEndpoint (hpath : request.path = Route.login.path) :
    service.Does request visit (service.pages.loginEndpoint.handle.run request visit) := by
  refine does_free fun handler hselect => ?_
  rcases Methods.eq_of_select_getPost hselect with rfl | ⟨hmethod, rfl⟩
  · exact does_showFlashes _ (by rw [hpath]; decide)
  · exact does_login ⟨hmethod, hpath⟩

theorem does_registerEndpoint (hpath : request.path = Route.register.path) :
    service.Does request visit
      ((Endpoint.free (.getPost service.pages.registerForm service.pages.register)).handle.run
        request visit) := by
  refine does_free fun handler hselect => ?_
  rcases Methods.eq_of_select_getPost hselect with rfl | ⟨hmethod, rfl⟩
  · exact does_showFlashes _ (by rw [hpath]; decide)
  · exact does_register hpath

theorem does_of_minesweeper {board : Board} {endpoint : Endpoint β}
    (hmem : (request.path, endpoint) ∈ (Minesweeper.mk service.pages board).endpoints) :
    service.Does request visit (endpoint.handle.run request visit) := by
  simp only [Minesweeper.endpoints, List.mem_cons, Prod.mk.injEq, List.not_mem_nil,
    or_false] at hmem
  rcases hmem with ⟨hpath, rfl⟩ | ⟨hpath, rfl⟩ | ⟨hpath, rfl⟩ | ⟨hpath, rfl⟩ | ⟨hpath, rfl⟩
  · exact does_loginEndpoint hpath
  · exact does_registerEndpoint hpath
  · refine does_gated (by rw [hpath]; decide) fun id handler hadmits hselect => ?_
    obtain ⟨-, rfl⟩ := Methods.eq_of_select_get hselect
    exact does_showUser _ hadmits (by rw [hpath]; decide)
  · refine does_gated (by rw [hpath]; decide) fun id handler hadmits hselect => ?_
    obtain ⟨-, rfl⟩ := Methods.eq_of_select_get hselect
    exact does_showUser _ hadmits (by rw [hpath]; decide)
  · refine does_gated (by rw [hpath]; decide) fun id handler hadmits hselect => ?_
    obtain ⟨hmethod, rfl⟩ := Methods.eq_of_select_get hselect
    exact does_logout hmethod hpath

theorem does_of_userSystem {endpoint : Endpoint β}
    (hmem : (request.path, endpoint) ∈ (UserSystem.mk service.pages).endpoints) :
    service.Does request visit (endpoint.handle.run request visit) := by
  simp only [UserSystem.endpoints, List.mem_cons, Prod.mk.injEq, List.not_mem_nil,
    or_false] at hmem
  rcases hmem with ⟨hpath, rfl⟩ | ⟨hpath, rfl⟩ | ⟨hpath, rfl⟩ | ⟨hpath, rfl⟩ | ⟨hpath, rfl⟩
  · refine does_free fun handler hselect => ?_
    obtain ⟨-, rfl⟩ := Methods.eq_of_select_get hselect
    exact does_showFlashes _ (by rw [hpath]; decide)
  · exact does_loginEndpoint hpath
  · exact does_registerEndpoint hpath
  · refine does_free fun handler hselect => ?_
    obtain ⟨hmethod, rfl⟩ := Methods.eq_of_select_get hselect
    exact does_logout hmethod hpath
  · refine does_gated (by rw [hpath]; decide) fun id handler hadmits hselect => ?_
    obtain ⟨-, rfl⟩ := Methods.eq_of_select_get hselect
    exact does_showFlashes _ (by rw [hpath]; decide)

theorem does_unknownPath (hlookup : service.endpoints.lookup request.path = none) :
    service.Does request visit (App.unknownPath.run request visit) := by
  refine does_spare (keeps_refl _) rfl (fun _ => ?_) (fun hlogout => ?_)
  · exact Option.some_ne_none _ |>.symm
  · rw [hlogout.2, endpoints] at hlookup
    split at hlookup
    · simp [Minesweeper.endpoints, Route.path, List.lookup] at hlookup
    · simp [UserSystem.endpoints, Route.path, List.lookup] at hlookup

/-- What any request does, whatever its path and its method are. -/
theorem does (service : AccountService σ β) (request : Request) (visit : Visit β) :
    service.Does request visit ((service.handler request).run request visit) := by
  rw [handler]
  cases hlookup : service.endpoints.lookup request.path with
  | none => exact does_unknownPath hlookup
  | some endpoint =>
    have hmem := mem_of_lookup hlookup
    rw [endpoints] at hmem
    split at hmem
    · exact does_of_minesweeper hmem
    · exact does_of_userSystem hmem

theorem effect_of_run {after : Visit β}
    (h : (service.handler request).run request visit = (answer, after)) :
    ∃ session, after.handle = visit.handle.commit session ∧ answer.setCookies = [] ∧
      service.Effect request visit answer session after.backing := by
  have hdoes := service.does request visit
  rw [h] at hdoes
  exact hdoes.2

theorem isAuthenticated_of_logout {after : Visit β} (hlogout : IsLogout request)
    (h : (service.handler request).run request visit = (answer, after)) :
    after.handle.session.isAuthenticated = false := by
  obtain ⟨session, hhandle, -, heffect⟩ := effect_of_run h
  rw [hhandle, SessionHandle.session_commit]
  generalize after.backing = backing at heffect
  cases heffect with
  | spared same unchanged failed anonymous => exact same.isAuthenticated.trans (anonymous hlogout)
  | signedIn isLogin => exact absurd hlogout (not_isLogout_of_isLogin isLogin)
  | loggedOut => exact AuthFlow.isAuthenticated_farewell _ _
  | vanished admits gone => rfl

/-- A handler has changed a session if, and only if, it leaves another one. -/
theorem modified_iff {session : Session} {backing : β} {after : Visit β}
    (h : (service.handler request).run request ⟨.new session, backing⟩ = (answer, after)) :
    after.handle.modified = true ↔ after.handle.session ≠ session := by
  obtain ⟨result, hhandle, -, -⟩ := effect_of_run h
  rw [hhandle, SessionHandle.modified_commit, SessionHandle.session_commit]
  simp only [SessionHandle.new, Bool.false_or, bne_iff_ne, ne_eq]
  exact not_congr eq_comm

theorem session_of_unmodified {session : Session} {backing : β} {after : Visit β}
    (h : (service.handler request).run request ⟨.new session, backing⟩ = (answer, after))
    (hmodified : after.handle.modified = false) : after.handle.session = session := by
  by_cases heq : after.handle.session = session
  · exact heq
  · rw [(modified_iff h).2 heq] at hmodified
    cases hmodified

theorem flashes_of_inline {after : Visit β} (hinline : service.site.flow.feedback = .inline)
    (hplain : visit.handle.session.flashes = [])
    (h : (service.handler request).run request visit = (answer, after)) :
    after.handle.session.flashes = [] := by
  obtain ⟨session, hhandle, -, heffect⟩ := effect_of_run h
  rw [hhandle, SessionHandle.session_commit]
  generalize after.backing = backing at heffect
  cases heffect with
  | spared same unchanged =>
    rw [unchanged hinline hplain]
    exact hplain
  | signedIn =>
    rw [AuthFlow.celebrate_of_inline hinline]
    exact hplain
  | loggedOut => rw [AuthFlow.farewell_of_inline hinline]; rfl
  | vanished admits gone => rfl

/-- Without notices, only a login changes a session and leaves it authenticated. -/
theorem isLogin_of_inline {session : Session} {backing : β} {after : Visit β}
    (hinline : service.site.flow.feedback = .inline) (hplain : session.flashes = [])
    (h : (service.handler request).run request ⟨.new session, backing⟩ = (answer, after))
    (hmodified : after.handle.modified = true)
    (hauthenticated : after.handle.session.isAuthenticated = true) : IsLogin request := by
  have hchanged := (modified_iff h).1 hmodified
  obtain ⟨result, hhandle, -, heffect⟩ := effect_of_run h
  rw [hhandle, SessionHandle.session_commit] at hchanged hauthenticated
  generalize after.backing = last at heffect
  cases heffect with
  | spared same unchanged => exact absurd (unchanged hinline hplain) hchanged
  | signedIn isLogin => exact isLogin
  | loggedOut =>
    rw [AuthFlow.isAuthenticated_farewell] at hauthenticated
    cases hauthenticated
  | vanished admits gone => cases hauthenticated

end AccountService

end Gatehouse
