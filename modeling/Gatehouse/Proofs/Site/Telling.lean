import Gatehouse.Proofs.Site.Accounts
import Gatehouse.Site.App

set_option autoImplicit false

/-!
# What the user system tells

The user system tells everything by notices, which wait in the session of their visitor. They are a
queue: news goes to its end, a page shows all of it and leaves nothing, and signing out starts it
anew.
-/

namespace Gatehouse

/-- A renderer that never fails. -/
def Renderer.Total (renderer : Renderer) : Prop :=
  ∀ view, ∃ html, renderer.render view = .ok html

/-- What the answer to a request has to do with notices. -/
inductive Telling where
  /-- A page shows those that are pending, and its own objection after them. -/
  | page (view : List Flash → View) (objection : Option Flash)
  /-- A redirect leaves one for the next page. -/
  | news (route : Route) (flash : Flash)
  /-- The visitor is signed out. -/
  | farewell
  /-- Nothing at all. -/
  | other (answer : Response)

namespace Telling

def loggedOut : Flash := ⟨.info, AuthFlow.signedOut⟩

/-- The notices that are pending after an answer. -/
def after (queue : List Flash) : Telling → List Flash
  | page _ _ => []
  | news _ flash => queue ++ [flash]
  | farewell => [loggedOut]
  | other _ => queue

/-- The notices that are pending after some answers, of which the last comes first. -/
def pending : List Telling → List Flash
  | [] => []
  | last :: earlier => last.after (pending earlier)

inductive Shows (renderer : Renderer) (queue : List Flash) : Telling → Response → Prop
  | page {view : List Flash → View} {objection : Option Flash} {html : String}
      (renders : renderer.render (view (queue ++ objection.toList)) = .ok html) :
      Shows renderer queue (.page view objection) (.html 200 html)
  | news {route : Route} {flash : Flash} :
      Shows renderer queue (.news route flash) (.seeOther route.path)
  | farewell : Shows renderer queue .farewell (.seeOther Route.home.path)
  | other {answer : Response} : Shows renderer queue (.other answer) answer

def AnsweredBy (renderer : Renderer) (queue : List Flash) (telling : Telling)
    (response : Response) : Prop :=
  ∃ answer allow setCookies, telling.Shows renderer queue answer ∧
    response = { answer with allow, setCookies }

/-- Each response shows what is pending when it is given. Of the responses, the last comes first. -/
def Answered (renderer : Renderer) : List (Telling × Response) → Prop
  | [] => True
  | (telling, response) :: earlier =>
    telling.AnsweredBy renderer (pending (earlier.map Prod.fst)) response ∧
      Answered renderer earlier

/-- All notices that pages have shown, in order. -/
def shown : List Telling → List Flash
  | [] => []
  | .page _ objection :: earlier => shown earlier ++ (pending earlier ++ objection.toList)
  | .news _ _ :: earlier | .farewell :: earlier | .other _ :: earlier => shown earlier

/-- All notices that there have been, in order. -/
def announced : List Telling → List Flash
  | [] => []
  | .page _ objection :: earlier => announced earlier ++ objection.toList
  | .news _ flash :: earlier => announced earlier ++ [flash]
  | .farewell :: earlier => announced earlier ++ [loggedOut]
  | .other _ :: earlier => announced earlier

theorem shown_append_pending {later earlier : List Telling} (h : .farewell ∉ later) :
    shown (later ++ earlier) ++ pending (later ++ earlier) =
      shown earlier ++ pending earlier ++ announced later := by
  induction later with
  | nil => simp [announced]
  | cons telling later ih =>
    rw [List.mem_cons, not_or] at h
    have hrest := ih h.2
    cases telling with
    | page view objection =>
      simp only [List.cons_append, shown, pending, after, announced, List.append_nil]
      rw [← List.append_assoc, hrest, List.append_assoc]
    | news route flash =>
      simp only [List.cons_append, shown, pending, after, announced]
      rw [← List.append_assoc, hrest, List.append_assoc]
    | farewell => exact absurd rfl h.1
    | other answer => exact hrest

end Telling

namespace Handler

variable {β : Type}

structure Tells (renderer : Renderer) (visit : Visit β) (telling : Telling)
    (result : Response × Visit β) : Prop where
  shows : telling.Shows renderer visit.handle.session.flashes result.1
  leaves : result.2.handle.session.flashes = telling.after visit.handle.session.flashes

variable {renderer : Renderer} {visit : Visit β} {request : Request}

theorem tells_other (answer : Response) (backing : β) :
    Tells renderer visit (.other answer) (answer, { visit with backing }) :=
  ⟨.other, rfl⟩

end Handler

def Methods.telling (tellings : Methods Telling) (method : String) : Telling :=
  (tellings.select method).getD (.other .notAllowed)

namespace Endpoint

open Handler (Tells)

variable {β : Type} {renderer : Renderer} {visit : Visit β} {request : Request} {telling : Telling}

theorem tells_get {handler : Handler (Visit β)}
    (h : Tells renderer visit telling (handler.run request visit)) :
    Tells renderer visit ((Methods.get telling).telling request.method)
      ((Endpoint.free (.get handler)).handle.run request visit) := by
  rw [run_free]
  by_cases hget : request.method = "GET" ∨ request.method = "HEAD"
  · simp only [Methods.telling, Methods.select, if_pos hget, Option.getD_some]
    exact h
  · simp only [Methods.telling, Methods.select, if_neg hget, Option.getD_none]
    exact Handler.tells_other _ _

theorem tells_getPost {handler post : Handler (Visit β)} {posted : Telling}
    (h : Tells renderer visit telling (handler.run request visit))
    (hposted : Tells renderer visit posted (post.run request visit)) :
    Tells renderer visit ((Methods.getPost telling posted).telling request.method)
      ((Endpoint.free (.getPost handler post)).handle.run request visit) := by
  rw [run_free]
  by_cases hget : request.method = "GET" ∨ request.method = "HEAD"
  · simp only [Methods.telling, Methods.select, if_pos hget, Option.getD_some]
    exact h
  · by_cases hpost : request.method = "POST"
    · simp only [Methods.telling, Methods.select, if_neg hget, if_pos hpost, Option.getD_some]
      exact hposted
    · simp only [Methods.telling, Methods.select, if_neg hget, if_neg hpost, Option.getD_none]
      exact Handler.tells_other _ _

end Endpoint

namespace AccountPages

open Handler (Tells)

variable {β : Type} (pages : AccountPages β)

def verdict (form : CredentialsForm) (backing : β) : Except LoginError Unit :=
  ((pages.signIn form .new).runFrom backing).1.map fun _ => ()

def loginTelling (request : Request) (backing : β) : Telling :=
  match CredentialsForm.ofRequest request with
  | .error error => .other error.toResponse
  | .ok form =>
    match pages.verdict form backing with
    | .ok () => .news .success ⟨.success, signedIn⟩
    | .error (.auth error) => .page (.login none) (some ⟨.error, error.message⟩)
    | .error (.store _) => .other .serverError

def registerTelling (request : Request) (backing : β) : Telling :=
  match CredentialsForm.ofRequest request with
  | .error error => .other error.toResponse
  | .ok form =>
    match ((pages.signUp form).runFrom backing).1 with
    | .ok none => .news .login ⟨.success, registered⟩
    | .ok (some message) => .page (.register none) (some ⟨.error, message⟩)
    | .error _ => .other .serverError

variable {pages} {visit : Visit β} {request : Request}

theorem verdict_eq (form : CredentialsForm) (session : Session) (backing : β) :
    ((pages.signIn form session).runFrom backing).1.map (fun _ => ()) =
      pages.verdict form backing := by
  rw [verdict, signIn, signIn]
  cases form.parse with
  | error error => rfl
  | ok values =>
    simp only [CredentialStore.login, Attempt.runFrom_bind]
    rcases ((pages.credentials.verify values.1 values.2).mapError LoginError.store).runFrom backing
      with ⟨error | matched, mid⟩
    · rfl
    · cases matched with
      | false => rfl
      | true =>
        simp only [if_true, Attempt.runFrom_bind]
        rcases ((pages.credentials.find values.1).mapError LoginError.store).runFrom mid with
          ⟨error | found, last⟩
        · rfl
        · cases found <;> rfl

section

variable (htotal : pages.renderer.Total)
include htotal

theorem shows_page (view : List Flash → View) (objection : Option Flash) (queue : List Flash) :
    (Telling.page view objection).Shows pages.renderer queue
      ((Page.render (view (queue ++ objection.toList))).answer pages.renderer) := by
  obtain ⟨html, hrender⟩ := htotal (view (queue ++ objection.toList))
  rw [Page.answer_of_renders hrender]
  exact .page hrender

theorem tells_showFlashes (view : List Flash → View) :
    Tells pages.renderer visit (.page view none)
      ((pages.showFlashes view).run request visit) := by
  rw [run_showFlashes]
  refine ⟨?_, rfl⟩
  have hshows := shows_page htotal view none visit.handle.session.flashes
  rwa [Option.toList_none, List.append_nil] at hshows

theorem tells_login (hflow : pages.flow = .userSystem) :
    Tells pages.renderer visit (pages.loginTelling request visit.backing)
      (pages.login.run request visit) := by
  rw [run_login, loginTelling]
  cases CredentialsForm.ofRequest request with
  | error error => exact Handler.tells_other _ _
  | ok form =>
    simp only
    rw [← verdict_eq form visit.handle.session visit.backing]
    rcases hsign : (pages.signIn form visit.handle.session).runFrom visit.backing with
      ⟨(error | error) | session, backing⟩
    · simp only [loginOutcome, AuthFlow.rejection, hflow, AuthFlow.userSystem]
      exact ⟨shows_page htotal _ (some _) _, rfl⟩
    · exact Handler.tells_other _ _
    · obtain ⟨name, password, mid, user, -, -, -, rfl⟩ := pages.signIn_ok hsign
      simp only [loginOutcome, AuthFlow.celebrate, hflow, AuthFlow.userSystem]
      exact ⟨.news, rfl⟩

theorem tells_register (hflow : pages.flow = .userSystem) :
    Tells pages.renderer visit (pages.registerTelling request visit.backing)
      (pages.register.run request visit) := by
  rw [run_register, registerTelling]
  cases CredentialsForm.ofRequest request with
  | error error => exact Handler.tells_other _ _
  | ok form =>
    simp only
    rcases (pages.signUp form).runFrom visit.backing with ⟨error | _ | message, backing⟩
    · exact Handler.tells_other _ _
    · simp only [registerOutcome, AuthFlow.celebrate, hflow, AuthFlow.userSystem]
      exact ⟨.news, rfl⟩
    · simp only [registerOutcome, AuthFlow.rejection, hflow, AuthFlow.userSystem]
      exact ⟨shows_page htotal _ (some _) _, rfl⟩

end

theorem tells_logout (hflow : pages.flow = .userSystem) :
    Tells pages.renderer visit .farewell (pages.logout.run request visit) := by
  rw [run_logout, hflow]
  exact ⟨.farewell, rfl⟩

end AccountPages

namespace UserSystem

open Handler (Tells)

variable {β : Type} (site : UserSystem β)

def tellings (request : Request) (admitted : Option Principal) (backing : β) :
    List (String × Telling) :=
  [(Route.home.path, (Methods.get (.page .welcome none)).telling request.method),
    (Route.login.path, (Methods.getPost (.page (.login none) none)
      (site.accounts.loginTelling request backing)).telling request.method),
    (Route.register.path, (Methods.getPost (.page (.register none) none)
      (site.accounts.registerTelling request backing)).telling request.method),
    (Route.logout.path, (Methods.get .farewell).telling request.method),
    (Route.success.path,
      match admitted with
      | some _ => (Methods.get (.page .success none)).telling request.method
      | none => .other (.seeOther Route.login.path))]

def telling (request : Request) (admitted : Option Principal) (backing : β) : Telling :=
  ((site.tellings request admitted backing).lookup request.path).getD (.other .notFound)

variable {site} {visit : Visit β} {request : Request}

theorem tells_success (htotal : site.accounts.renderer.Total) :
    Tells site.accounts.renderer visit
      (match (SessionGate.check {} visit.handle.session).toOption with
        | some _ => (Methods.get (.page .success none)).telling request.method
        | none => .other (.seeOther Route.login.path))
      ((Endpoint.gated {} (.get site.success)).handle.run request visit) := by
  rw [Endpoint.run_gated]
  cases hcheck : SessionGate.check {} visit.handle.session with
  | error route =>
    rw [SessionGate.route_of_check hcheck]
    exact Handler.tells_other _ _
  | ok principal =>
    by_cases hget : request.method = "GET" ∨ request.method = "HEAD"
    · simp only [Except.toOption, Methods.telling, Methods.select, if_pos hget, Option.getD_some]
      exact AccountPages.tells_showFlashes htotal _
    · simp only [Except.toOption, Methods.telling, Methods.select, if_neg hget, Option.getD_none]
      exact Handler.tells_other _ _

abbrev Matches (renderer : Renderer) (visit : Visit β) (request : Request) :
    List (String × Endpoint β) → List (String × Telling) → Prop :=
  List.Forall₂ fun entry telling => entry.1 = telling.1 ∧
    Tells renderer visit telling.2 (entry.2.handle.run request visit)

theorem matches_tellings
    (htotal : site.accounts.renderer.Total)
    (hflow : site.accounts.flow = .userSystem) :
    Matches site.accounts.renderer visit request site.endpoints
      (site.tellings request (SessionGate.check {} visit.handle.session).toOption
        visit.backing) := by
  refine .cons ⟨rfl, Endpoint.tells_get (AccountPages.tells_showFlashes htotal _)⟩ ?_
  refine .cons ⟨rfl, Endpoint.tells_getPost (AccountPages.tells_showFlashes htotal _)
    (AccountPages.tells_login htotal hflow)⟩ ?_
  refine .cons ⟨rfl, Endpoint.tells_getPost (AccountPages.tells_showFlashes htotal _)
    (AccountPages.tells_register htotal hflow)⟩ ?_
  refine .cons ⟨rfl, Endpoint.tells_get (AccountPages.tells_logout hflow)⟩ ?_
  exact .cons ⟨rfl, tells_success htotal⟩ .nil

theorem tells_lookup {renderer : Renderer} {endpoints : List (String × Endpoint β)}
    {tellings : List (String × Telling)} (h : Matches renderer visit request endpoints tellings) :
    Tells renderer visit ((tellings.lookup request.path).getD (.other .notFound))
      ((match endpoints.lookup request.path with
        | some endpoint => endpoint.handle
        | none => App.unknownPath).run request visit) := by
  induction h with
  | nil => exact Handler.tells_other _ _
  | @cons entry telling endpoints tellings hentry hrest ih =>
    obtain ⟨path, endpoint⟩ := entry
    obtain ⟨_, told⟩ := telling
    obtain ⟨rfl, htells⟩ := hentry
    rw [List.lookup_cons, List.lookup_cons]
    cases hpath : request.path == path with
    | true => exact htells
    | false => exact ih

end UserSystem

end Gatehouse
