import Gatehouse.Proofs.Http.Agreement
import Gatehouse.Site.App

set_option autoImplicit false

/-!
# Sites that agree

The three applications over supplies that agree: their answers agree. Every call is followed through
the errors that it is turned into, and of a failing store at most two things are told, that a stored
session is corrupt and that a name is taken.
-/

namespace Gatehouse

variable {σ σ' β β' : Type} {partner : Partner} {related : σ → σ' → Prop} {kept : β → β' → Prop}

/-- What is told of a store that refuses an account. -/
def CredentialError.duplicate? : CredentialError → Option Unit
  | .userAlreadyExists => some ()
  | .unavailable _ | .unexpected _ => none

def LoginError.told : LoginError → Option AuthError
  | .auth error => some error
  | .store _ => none

theorem LoginError.eq_of_told {error : LoginError} {news : AuthError} (h : error.told = some news) :
    error = .auth news := by
  cases error with
  | auth error => exact congrArg _ (Option.some.inj h)
  | store error => cases h

theorem LoginError.store_of_untold {error : LoginError} (h : error.told = none) :
    ∃ cause, error = .store cause := by
  cases error with
  | auth error => cases h
  | store error => exact ⟨error, rfl⟩

def RegisterError.told : RegisterError → Option AuthError
  | .auth error => some error
  | .store _ => none

theorem RegisterError.eq_of_told {error : RegisterError} {news : AuthError}
    (h : error.told = some news) : error = .auth news := by
  cases error with
  | auth error => exact congrArg _ (Option.some.inj h)
  | store error => cases h

theorem RegisterError.store_of_untold {error : RegisterError} (h : error.told = none) :
    ∃ cause, error = .store cause := by
  cases error with
  | auth error => cases h
  | store error => exact ⟨error, rfl⟩

def ProfileError.told : ProfileError → Option Unit
  | .unknownUser => some ()
  | .store _ => none

theorem ProfileError.eq_of_told {error : ProfileError} {news : Unit} (h : error.told = some news) :
    error = .unknownUser := by
  cases error with
  | unknownUser => rfl
  | store error => cases h

theorem ProfileError.store_of_untold {error : ProfileError} (h : error.told = none) :
    ∃ cause, error = .store cause := by
  cases error with
  | unknownUser => cases h
  | store error => exact ⟨error, rfl⟩

theorem RegisterError.told_ofStore (error : CredentialError) :
    (RegisterError.ofStore error).told =
      error.duplicate?.map fun _ => AuthError.duplicateUsername := by
  cases error <;> rfl

/-- Nobody is told more of a store of accounts than that a name is taken. -/
structure CredentialStore.Agree (partner : Partner) (kept : β → β' → Prop)
    (store : CredentialStore β) (other : CredentialStore β') : Prop where
  find : ∀ name, Attempt.Agree partner Attempt.untold kept (store.find name) (other.find name)
  get : ∀ id, Attempt.Agree partner Attempt.untold kept (store.get id) (other.get id)
  isTaken : ∀ name,
    Attempt.Agree partner CredentialError.duplicate? kept (store.isTaken name) (other.isTaken name)
  create : ∀ name password,
    Attempt.Agree partner CredentialError.duplicate? kept (store.create name password)
      (other.create name password)
  verify : ∀ name password,
    Attempt.Agree partner Attempt.untold kept (store.verify name password)
      (other.verify name password)

namespace CredentialStore.Agree

theorem refl (store : CredentialStore β) : store.Agree partner Eq store where
  find _ := .refl _
  get _ := .refl _
  isTaken _ := .refl _
  create _ _ := .refl _
  verify _ _ := .refl _

variable {store : CredentialStore β} {other : CredentialStore β'}
  (h : store.Agree partner kept other)

include h

theorem login (session : Session) (name : Username) (password : Password) :
    Attempt.Agree partner LoginError.told kept (store.login session name password)
      (other.login session name password) := by
  refine .bind ((h.verify name password).mapError (fun _ _ _ => rfl) fun _ _ => rfl) ?_
  intro matched
  cases matched with
  | false => exact .throw rfl
  | true =>
    refine .bind ((h.find name).mapError (fun _ _ _ => rfl) fun _ _ => rfl) ?_
    intro found
    cases found with
    | none => exact .throw rfl
    | some user => exact .pure _

theorem register (name : Username) (password : Password) :
    Attempt.Agree partner RegisterError.told kept (store.register name password)
      (other.register name password) := by
  have hsame (error error' : CredentialError) (herror : error.duplicate? = error'.duplicate?) :
      (RegisterError.ofStore error).told = (RegisterError.ofStore error').told := by
    rw [RegisterError.told_ofStore, RegisterError.told_ofStore, herror]
  have huntold (error : CredentialError) (herror : error.duplicate? = none) :
      (RegisterError.ofStore error).told = none := by
    rw [RegisterError.told_ofStore, herror]
    rfl
  refine .bind ((h.isTaken name).mapError hsame huntold) ?_
  intro taken
  cases taken with
  | true => exact .throw rfl
  | false => exact (h.create name password).mapError hsame huntold

theorem loadProfile (principal : Principal) :
    Attempt.Agree partner ProfileError.told kept (store.loadProfile principal)
      (other.loadProfile principal) := by
  refine .bind ((h.get principal.userId).mapError (fun _ _ _ => rfl) fun _ _ => rfl) ?_
  intro found
  cases found with
  | none => exact .throw rfl
  | some user => exact .pure user

end CredentialStore.Agree

namespace AccountPages

/-- Pages of one flow, over accounts and renderers that agree. -/
structure Agree (partner : Partner) (kept : β → β' → Prop) (pages : AccountPages β)
    (other : AccountPages β') : Prop where
  credentials : pages.credentials.Agree partner kept other.credentials
  renderer : pages.renderer.Agree partner other.renderer
  flow : pages.flow = other.flow

namespace Agree

variable {pages : AccountPages β} {other : AccountPages β'} (h : pages.Agree partner kept other)

include h

theorem showFlashes (view : List Flash → View) :
    (pages.showFlashes view).Agree partner (Visit.Related kept) (other.showFlashes view) :=
  fun _ => .bind Visit.agree_takeFlashes fun _ => h.renderer.send _

theorem logout : pages.logout.Agree partner (Visit.Related kept) other.logout := by
  intro request
  rw [AccountPages.logout, AccountPages.logout, h.flow]
  exact .bind (Visit.agree_update _) fun _ => h.renderer.send _

theorem accept (route : Route) (message : String) (session : Session) :
    Attempt.Agree partner Attempt.untold (Visit.Related kept) (pages.accept route message session)
      (other.accept route message session) := by
  rw [AccountPages.accept, AccountPages.accept, h.flow]
  exact .bind (Visit.agree_commit _) fun _ => h.renderer.send _

theorem reject (view : Option String → List Flash → View) (message : String)
    (session : Session) :
    Attempt.Agree partner Attempt.untold (Visit.Related kept) (pages.reject view message session)
      (other.reject view message session) := by
  rw [AccountPages.reject, AccountPages.reject, h.flow]
  exact .bind (Visit.agree_commit _) fun _ => h.renderer.send _

theorem signIn (form : CredentialsForm) (session : Session) :
    Attempt.Agree partner LoginError.told kept (pages.signIn form session)
      (other.signIn form session) := by
  rw [AccountPages.signIn, AccountPages.signIn]
  cases form.parse with
  | ok valid => exact .bind (h.credentials.login session valid.1 valid.2) fun _ => .pure _
  | error error => exact .throw rfl

theorem signUp (form : CredentialsForm) :
    Attempt.Agree partner Attempt.untold kept (pages.signUp form) (other.signUp form) := by
  rw [AccountPages.signUp, AccountPages.signUp]
  cases form.parse with
  | error error => exact .pure _
  | ok valid =>
    refine (h.credentials.register valid.1 valid.2).outcome_bind (fun _ => .pure _) ?_ ?_ ?_
    · intro error error' news hnews hnews'
      obtain rfl := RegisterError.eq_of_told hnews
      obtain rfl := RegisterError.eq_of_told hnews'
      exact .pure _
    · intro error huntold
      obtain ⟨cause, rfl⟩ := RegisterError.store_of_untold huntold
      exact ⟨_, rfl, rfl⟩
    · intro error huntold
      obtain ⟨cause, rfl⟩ := RegisterError.store_of_untold huntold
      exact ⟨_, rfl, rfl⟩

theorem login : pages.login.Agree partner (Visit.Related kept) other.login := by
  intro request
  rw [AccountPages.login, AccountPages.login, withForm, withForm]
  cases CredentialsForm.ofRequest request with
  | error error => exact .pure _
  | ok form =>
    refine .bind Visit.agree_session fun session => ?_
    refine (Visit.agree_inBacking (h.signIn form session)).outcome_bind ?_ ?_ ?_ ?_
    · intro session
      dsimp only
      rw [h.flow]
      exact h.accept _ _ session
    · intro error error' news hnews hnews'
      obtain rfl := LoginError.eq_of_told hnews
      obtain rfl := LoginError.eq_of_told hnews'
      exact h.reject .login news.message session
    · intro error huntold
      obtain ⟨cause, rfl⟩ := LoginError.store_of_untold huntold
      exact ⟨_, rfl, rfl⟩
    · intro error huntold
      obtain ⟨cause, rfl⟩ := LoginError.store_of_untold huntold
      exact ⟨_, rfl, rfl⟩

theorem register : pages.register.Agree partner (Visit.Related kept) other.register := by
  intro request
  rw [AccountPages.register, AccountPages.register, withForm, withForm]
  cases CredentialsForm.ofRequest request with
  | error error => exact .pure _
  | ok form =>
    refine .bind Visit.agree_session fun session => ?_
    refine .bind (Visit.agree_inBacking (h.signUp form)) fun objection => ?_
    cases objection with
    | none => exact h.accept .login registered session
    | some message => exact h.reject .register message session

end Agree

end AccountPages

theorem Minesweeper.agree_showUser {site : Minesweeper β} {other : Minesweeper β'}
    (h : site.accounts.Agree partner kept other.accounts) (view : User → View)
    (principal : Principal) :
    (site.showUser view principal).Agree partner (Visit.Related kept)
      (other.showUser view principal) := by
  intro request
  refine (Visit.agree_inBacking (h.credentials.loadProfile principal)).outcome_bind ?_ ?_ ?_ ?_
  · intro user
    exact h.renderer.send _
  · intro error error' news hnews hnews'
    obtain rfl := ProfileError.eq_of_told hnews
    obtain rfl := ProfileError.eq_of_told hnews'
    exact .bind (Visit.agree_update _) fun _ => h.renderer.send _
  · intro error huntold
    obtain ⟨cause, rfl⟩ := ProfileError.store_of_untold huntold
    exact ⟨_, rfl, rfl⟩
  · intro error huntold
    obtain ⟨cause, rfl⟩ := ProfileError.store_of_untold huntold
    exact ⟨_, rfl, rfl⟩

/-- Nobody is told anything of a to-do list that fails. -/
structure TodoStore.Agree (partner : Partner) (kept : β → β' → Prop) (store : TodoStore β)
    (other : TodoStore β') : Prop where
  list : Attempt.Agree partner Attempt.untold kept store.list other.list
  append : ∀ todo, Attempt.Agree partner Attempt.untold kept (store.append todo) (other.append todo)

theorem TodoStore.Agree.refl (store : TodoStore β) : store.Agree partner Eq store where
  list := .refl _
  append _ := .refl _

namespace TodoList

/-- Sites over lists and renderers that agree. -/
structure Agree (partner : Partner) (kept : β → β' → Prop) (site : TodoList β)
    (other : TodoList β') : Prop where
  todos : site.todos.Agree partner kept other.todos
  renderer : site.renderer.Agree partner other.renderer

namespace Agree

variable {site : TodoList β} {other : TodoList β'} (h : site.Agree partner kept other)

include h

theorem list : site.list.Agree partner kept other.list :=
  fun _ => .bind (h.todos.list.mapError (fun _ _ _ => rfl) fun _ _ => rfl) fun _ =>
    h.renderer.send _

theorem newForm : site.newForm.Agree partner kept other.newForm :=
  fun _ => h.renderer.send _

theorem add : site.add.Agree partner kept other.add := by
  intro request
  rw [TodoList.add, TodoList.add]
  cases NewTodo.ofRequest request with
  | error error => exact .pure _
  | ok todo =>
    have hadd : Attempt.Agree partner Attempt.untold kept (site.todos.add todo)
        (other.todos.add todo) :=
      (h.todos.append todo).mapError (fun _ _ _ => rfl) fun _ _ => rfl
    exact .bind (hadd.mapError (fun _ _ _ => rfl) fun _ _ => rfl) fun _ => h.renderer.send _

end Agree

end TodoList

/-- The failure of a whole request. The methods of its path may be named, and its body left out. -/
def Response.IsFailureOf (request : Request) (response : Response) : Prop :=
  response =
    { Response.serverError with
      allow := response.allow
      setCookies := response.setCookies
      body := if request.dropsBody 500 then "" else Response.serverError.body }

theorem lookup_agree {α α' : Type} {agree : α → α' → Prop} {entries : List (String × α)}
    {others : List (String × α')}
    (h : List.Forall₂ (fun entry other => entry.1 = other.1 ∧ agree entry.2 other.2) entries others)
    (name : String) : Option.Rel agree (entries.lookup name) (others.lookup name) := by
  induction h with
  | nil => exact .none
  | @cons entry other entries others hentry _ ih =>
    obtain ⟨hname, hagree⟩ := hentry
    rw [List.lookup_cons, List.lookup_cons, hname]
    cases name == other.1 with
    | true => exact .some hagree
    | false => exact ih

namespace App

/-- The same paths, with endpoints that agree, behind session layers that agree. -/
structure Agree (partner : Partner) (related : σ → σ' → Prop) (kept : β → β' → Prop)
    (app : App σ β) (other : App σ' β') : Prop where
  sessions : Option.Rel (SessionLayer.Agree partner related) app.sessions other.sessions
  endpoints : List.Forall₂ (fun entry entry' => entry.1 = entry'.1 ∧
    Endpoint.Agree partner kept entry.2 entry'.2) app.endpoints other.endpoints
  openPaths : List.Forall₂ (fun entry entry' => entry.1 = entry'.1 ∧
    Methods.Agree (Handler.Agree partner kept) entry.2 entry'.2) app.openPaths other.openPaths

variable {app : App σ β} {other : App σ' β'}

theorem unknownPath_agree {τ τ' : Type} {related : τ → τ' → Prop} :
    (unknownPath : Handler τ).Agree partner related unknownPath :=
  fun _ => .pure _

namespace Agree

variable (h : app.Agree partner related kept other) (request : Request) (fresh : SessionToken)
  {server : Server σ β} {server' : Server σ' β'}
  (hservers : server.Related related kept server')

include h hservers

theorem serveInside {layer : SessionLayer σ} {layer' : SessionLayer σ'}
    (hlayer : layer.Agree partner related layer') :
    Answer.Agree partner Response.IsFailure (Server.Related related kept)
      (app.serveInside layer request fresh server)
      (other.serveInside layer' request fresh server') := by
  have hendpoint := lookup_agree h.endpoints request.path
  rw [App.serveInside, App.serveInside]
  generalize app.endpoints.lookup request.path = found at hendpoint ⊢
  generalize other.endpoints.lookup request.path = found' at hendpoint ⊢
  cases hendpoint with
  | none => exact hlayer.serve unknownPath_agree request fresh hservers
  | @some endpoint endpoint' hendpoint =>
    dsimp only
    rw [← hendpoint.nameIn]
    exact (hlayer.serve hendpoint.handle request fresh hservers).mapResponse _
      fun _ => Endpoint.Agree.isFailure_nameIn endpoint request

theorem servePath :
    Answer.Agree partner Response.IsFailure (Server.Related related kept)
      (app.servePath request fresh server) (other.servePath request fresh server') := by
  have hpath := lookup_agree h.openPaths request.path
  have hsessions := h.sessions
  rw [App.servePath, App.servePath]
  generalize app.openPaths.lookup request.path = found at hpath ⊢
  generalize other.openPaths.lookup request.path = found' at hpath ⊢
  cases hpath with
  | none =>
    generalize app.sessions = layer at hsessions ⊢
    generalize other.sessions = layer' at hsessions ⊢
    cases hsessions with
    | none => exact .same _ hservers
    | some hlayer => exact h.serveInside request fresh hservers hlayer
  | @some methods methods' hmethods =>
    have hrun := hmethods.handle.run hservers.2 request
    dsimp only
    rw [← hmethods.nameIn]
    generalize methods.handle.run request server.backing = answer at hrun ⊢
    generalize methods'.handle.run request server'.backing = answer' at hrun ⊢
    cases hrun with
    | same response hafter => exact .same _ ⟨hservers.1, hafter⟩
    | alone hpartner hfailure =>
      exact .alone hpartner (Methods.Agree.isFailure_nameIn methods request hfailure)

theorem serve :
    Answer.Agree partner (Response.IsFailureOf request) (Server.Related related kept)
      (app.serve request fresh server) (other.serve request fresh server') := by
  rw [App.serve, App.serve]
  cases assets.below? request.path with
  | some path => exact .same _ hservers
  | none =>
    refine (h.servePath request fresh hservers).mapResponse (fun response =>
      if request.dropsBody response.status then { response with body := "" } else response) ?_
    intro response hfailure
    have hdrops : request.dropsBody response.status = request.dropsBody 500 :=
      congrArg (fun response => request.dropsBody response.status) hfailure
    rw [hdrops, Response.IsFailureOf]
    split
    · exact congrArg (fun response => { response with body := "" }) hfailure
    · exact hfailure

end Agree

theorem Agree.serve_same_or_failed {app other : App σ β} (h : app.Agree partner Eq Eq other)
    (request : Request) (fresh : SessionToken) (server : Server σ β) :
    other.serve request fresh server = app.serve request fresh server ∨
      partner = .anything ∧ (app.serve request fresh server).1.IsFailureOf request := by
  have hserver : server.Related Eq Eq server := ⟨rfl, rfl⟩
  refine (h.serve request fresh hserver).same_or_failed.imp_left ?_
  rintro ⟨hresponse, hservers⟩
  exact (Prod.ext hresponse (Server.eq_of_related hservers)).symm

end App

end Gatehouse
