import Gatehouse.Proofs.Site.Agreement
import Gatehouse.Proofs.Site.Registration

set_option autoImplicit false

/-!
# Failures of which nobody is told

Whatever an application works with may fail at any call. How it fails shows in nothing that the
client sees and in nothing that is kept: the answer is the page of failures. Two errors are told. A
stored session that is corrupt counts as none, and a name that is taken when its account is added
counts as taken before.
-/

namespace Gatehouse

variable {σ σ' β β' : Type}

/-- All that the applications work with. -/
structure Supplies (σ β : Type) where
  sessions : SessionStore σ
  credentials : CredentialStore β
  todos : TodoStore β
  renderer : Renderer

inductive AppKind where
  | minesweeper (board : Board)
  | userSystem
  | todoList

def AppKind.app (kind : AppKind) (cookie : SessionCookie) (supplies : Supplies σ β) : App σ β :=
  match kind with
  | minesweeper board =>
    .minesweeper ⟨supplies.sessions, cookie⟩ supplies.credentials supplies.renderer board
  | userSystem => .userSystem ⟨supplies.sessions, cookie⟩ supplies.credentials supplies.renderer
  | todoList => .todoList supplies.todos supplies.renderer

namespace Supplies

structure Agree (partner : Partner) (related : σ → σ' → Prop) (kept : β → β' → Prop)
    (supplies : Supplies σ β) (others : Supplies σ' β') : Prop where
  sessions : supplies.sessions.Agree partner related others.sessions
  credentials : supplies.credentials.Agree partner kept others.credentials
  todos : supplies.todos.Agree partner kept others.todos
  renderer : supplies.renderer.Agree partner others.renderer

/-- The same calls fail, each in whatever way, and leave the same behind. -/
def FailAlike (supplies others : Supplies σ β) : Prop :=
  supplies.Agree .failsToo Eq Eq others

/-- A call that does not fail does the same for the others. One that fails may do anything. -/
def AgreeUnlessFailing (supplies others : Supplies σ β) : Prop :=
  supplies.Agree .anything Eq Eq others

end Supplies

theorem AppKind.agree_app {partner : Partner} {related : σ → σ' → Prop} {kept : β → β' → Prop}
    (kind : AppKind) {cookie : SessionCookie} {supplies : Supplies σ β} {others : Supplies σ' β'}
    (hlayer : (SessionLayer.mk supplies.sessions cookie).Agree partner related
      ⟨others.sessions, cookie⟩)
    (hcredentials : supplies.credentials.Agree partner kept others.credentials)
    (htodos : supplies.todos.Agree partner kept others.todos)
    (hrenderer : supplies.renderer.Agree partner others.renderer) :
    (kind.app cookie supplies).Agree partner related kept (kind.app cookie others) := by
  cases kind with
  | minesweeper board =>
    have hpages : AccountPages.Agree partner kept
        ⟨supplies.credentials, supplies.renderer, .minesweeper⟩
        ⟨others.credentials, others.renderer, .minesweeper⟩ := ⟨hcredentials, hrenderer, rfl⟩
    refine ⟨.some hlayer, ?_, .nil⟩
    refine .cons ⟨rfl, .free (.getPost (hpages.showFlashes _) hpages.login)⟩ ?_
    refine .cons ⟨rfl, .free (.getPost (hpages.showFlashes _) hpages.register)⟩ ?_
    refine .cons ⟨rfl, .gated {} (.get (Minesweeper.agree_showUser hpages _))⟩ ?_
    refine .cons ⟨rfl, .gated {} (.get (Minesweeper.agree_showUser hpages _))⟩ ?_
    exact .cons ⟨rfl, .gated {} (.get fun _ => hpages.logout)⟩ .nil
  | userSystem =>
    have hpages : AccountPages.Agree partner kept
        ⟨supplies.credentials, supplies.renderer, .userSystem⟩
        ⟨others.credentials, others.renderer, .userSystem⟩ := ⟨hcredentials, hrenderer, rfl⟩
    refine ⟨.some hlayer, ?_, .nil⟩
    refine .cons ⟨rfl, .free (.get (hpages.showFlashes _))⟩ ?_
    refine .cons ⟨rfl, .free (.getPost (hpages.showFlashes _) hpages.login)⟩ ?_
    refine .cons ⟨rfl, .free (.getPost (hpages.showFlashes _) hpages.register)⟩ ?_
    refine .cons ⟨rfl, .free (.get hpages.logout)⟩ ?_
    exact .cons ⟨rfl, .gated {} (.get fun _ => hpages.showFlashes _)⟩ .nil
  | todoList =>
    have hsite : TodoList.Agree partner kept ⟨supplies.todos, supplies.renderer⟩
        ⟨others.todos, others.renderer⟩ := ⟨htodos, hrenderer⟩
    refine ⟨.none, .nil, ?_⟩
    refine .cons ⟨rfl, .get hsite.list⟩ ?_
    exact .cons ⟨rfl, .getPost hsite.newForm hsite.add⟩ .nil

theorem Supplies.Agree.app {partner : Partner} {related : σ → σ' → Prop} {kept : β → β' → Prop}
    {supplies : Supplies σ β} {others : Supplies σ' β'}
    (h : supplies.Agree partner related kept others) (kind : AppKind) (cookie : SessionCookie) :
    (kind.app cookie supplies).Agree partner related kept (kind.app cookie others) :=
  kind.agree_app (SessionLayer.agree_of_store h.sessions) h.credentials h.todos h.renderer

namespace Supplies

/-- The same supplies, with a note of whether a call has failed of which nothing is told. -/
def watched (supplies : Supplies σ β) : Supplies (Watched σ) (Watched β) where
  sessions :=
    { load := fun token => (supplies.sessions.load token).watched SessionStoreError.corruption?
      save := fun token session => (supplies.sessions.save token session).watched Attempt.untold
      remove := fun token => (supplies.sessions.remove token).watched Attempt.untold }
  credentials :=
    { find := fun name => (supplies.credentials.find name).watched Attempt.untold
      get := fun id => (supplies.credentials.get id).watched Attempt.untold
      isTaken := fun name =>
        (supplies.credentials.isTaken name).watched CredentialError.duplicate?
      create := fun name password =>
        (supplies.credentials.create name password).watched CredentialError.duplicate?
      verify := fun name password =>
        (supplies.credentials.verify name password).watched Attempt.untold }
  todos :=
    { list := supplies.todos.list.watched Attempt.untold
      append := fun todo => (supplies.todos.append todo).watched Attempt.untold }
  renderer := supplies.renderer

variable {partner : Partner} (supplies : Supplies σ β)

theorem agree_watched_of {related : σ → Watched σ → Prop} {kept : β → Watched β → Prop}
    (hsessions : ∀ {ε ω α : Type} {told : ε → Option ω} (attempt : Attempt ε σ α),
      Attempt.Agree partner told related attempt (attempt.watched told))
    (hkept : ∀ {ε ω α : Type} {told : ε → Option ω} (attempt : Attempt ε β α),
      Attempt.Agree partner told kept attempt (attempt.watched told)) :
    supplies.Agree partner related kept supplies.watched where
  sessions :=
    { load := fun _ => hsessions _
      save := fun _ _ => hsessions _
      remove := fun _ => hsessions _ }
  credentials :=
    { find := fun _ => hkept _
      get := fun _ => hkept _
      isTaken := fun _ => hkept _
      create := fun _ _ => hkept _
      verify := fun _ _ => hkept _ }
  todos :=
    { list := hkept _
      append := fun _ => hkept _ }
  renderer := .refl _

end Supplies

namespace Server

def watched (server : Server σ β) : Server (Watched σ) (Watched β) :=
  ⟨⟨server.sessions, false⟩, ⟨server.backing, false⟩⟩

def unwatched (server : Server (Watched σ) (Watched β)) : Server σ β :=
  ⟨server.sessions.state, server.backing.state⟩

def CallFailed (server : Server (Watched σ) (Watched β)) : Prop :=
  server.sessions.failed = true ∨ server.backing.failed = true

end Server

section

variable (kind : AppKind) (cookie : SessionCookie) {supplies others : Supplies σ β}
  (request : Request) (fresh : SessionToken) (server : Server σ β)

theorem serve_of_failAlike (h : supplies.FailAlike others) :
    (kind.app cookie others).serve request fresh server =
      (kind.app cookie supplies).serve request fresh server :=
  ((h.app kind cookie).serve_same_or_failed request fresh server).resolve_right fun hfailed =>
    nomatch hfailed.1

theorem serve_of_agreeUnlessFailing (h : supplies.AgreeUnlessFailing others) :
    (kind.app cookie others).serve request fresh server =
        (kind.app cookie supplies).serve request fresh server ∨
      ((kind.app cookie supplies).serve request fresh server).1.IsFailureOf request :=
  ((h.app kind cookie).serve_same_or_failed request fresh server).imp_right And.right

theorem serve_watched :
    (((kind.app cookie supplies.watched).serve request fresh server.watched).1,
      ((kind.app cookie supplies.watched).serve request fresh server.watched).2.unwatched) =
      (kind.app cookie supplies).serve request fresh server := by
  have hagree := supplies.agree_watched_of Attempt.agree_watched Attempt.agree_watched
  have hservers : Server.Related (fun state watched => watched.state = state)
      (fun state watched => watched.state = state) server server.watched := ⟨rfl, rfl⟩
  rcases ((hagree.app kind cookie).serve request fresh hservers).same_or_failed with
    ⟨hresponse, hsessions, hbacking⟩ | ⟨hpartner, -⟩
  · rw [← hresponse, Server.unwatched, hsessions, hbacking]
  · cases hpartner

theorem isFailureOf_of_callFailed
    (h : ((kind.app cookie supplies.watched).serve request fresh server.watched).2.CallFailed) :
    ((kind.app cookie supplies).serve request fresh server).1.IsFailureOf request := by
  have hagree := supplies.agree_watched_of Attempt.agree_unnoted Attempt.agree_unnoted
  have hservers : Server.Related (fun state watched => watched = Watched.mk state false)
      (fun state watched => watched = Watched.mk state false) server server.watched := ⟨rfl, rfl⟩
  rcases ((hagree.app kind cookie).serve request fresh hservers).same_or_failed with
    ⟨-, hsessions, hbacking⟩ | ⟨-, hfailure⟩
  · rw [Server.CallFailed, hsessions, hbacking] at h
    rcases h with h | h <;> cases h
  · exact hfailure

end

def SessionStore.forgiving (store : SessionStore σ) : SessionStore σ :=
  { store with
    load := fun token => do
      match ← (store.load token).outcome with
      | .ok session => pure session
      | .error (.corrupt _) =>
        (store.remove token).mapError fun error => .database error.reason
        pure none
      | .error error => throw error }

theorem SessionLayer.agree_forgiving (store : SessionStore σ) (cookie : SessionCookie) :
    (SessionLayer.mk store cookie).Agree .failsToo Eq ⟨store.forgiving, cookie⟩ where
  cookie := rfl
  load token := by
    rintro state _ rfl
    simp only [SessionLayer.load, SessionStore.forgiving, Attempt.runFrom_bind,
      Attempt.runFrom_outcome]
    rcases (store.load token).runFrom state with ⟨(reason | reason) | session, mid⟩
    · exact .error rfl rfl
    · simp only [Attempt.runFrom_bind, Attempt.runFrom_mapError]
      rcases (store.remove token).runFrom mid with ⟨error | _, after⟩
      · exact .error rfl rfl
      · exact .ok none rfl
    · exact .ok _ rfl
  save _ _ := .refl _
  remove _ := .refl _

/-- A store that says of every name that it is taken, and leaves this behind. -/
def CredentialStore.alwaysTaken (store : CredentialStore β) (after : β) : CredentialStore β :=
  { store with isTaken := fun _ => .ofFunction fun _ => (.ok true, after) }

/-- The ways in which a registration learns that a name has an account: by asking, or from an error
of either call. -/
inductive CredentialStore.FoundTaken (store : CredentialStore β) (name : Username)
    (password : Password) (before after : β) : Prop
  | known (h : (store.isTaken name).runFrom before = (.ok true, after))
  | asked (h : (store.isTaken name).runFrom before = (.error .userAlreadyExists, after))
  | added {mid : β} (hfree : (store.isTaken name).runFrom before = (.ok false, mid))
      (h : (store.create name password).runFrom mid = (.error .userAlreadyExists, after))

section

variable {request : Request} {form : CredentialsForm} {name : Username} {password : Password}
  {before after : β}

theorem CredentialStore.FoundTaken.register {store : CredentialStore β}
    (h : store.FoundTaken name password before after) :
    (store.register name password).runFrom before =
      (.error (.auth .duplicateUsername), after) := by
  rw [CredentialStore.register, Attempt.runFrom_bind, Attempt.runFrom_mapError]
  cases h with
  | known h =>
    rw [h]
    rfl
  | asked h =>
    rw [h]
    rfl
  | added hfree h =>
    rw [hfree]
    dsimp only [Attempt.mapError_ok]
    rw [if_neg Bool.false_ne_true, Attempt.runFrom_mapError, h]
    rfl

theorem AccountPages.run_register_of_foundTaken {pages : AccountPages β} {handle : SessionHandle}
    (hform : CredentialsForm.ofRequest request = .ok form)
    (hparse : form.parse = .ok (name, password))
    (h : pages.credentials.FoundTaken name password before after) :
    pages.register.run request ⟨handle, before⟩ =
      let outcome :=
        pages.registerOutcome handle (.ok (some AuthError.duplicateUsername.message))
      (outcome.1, ⟨outcome.2, after⟩) := by
  have hsignUp : (pages.signUp form).runFrom before =
      (.ok (some AuthError.duplicateUsername.message), after) := by
    rw [signUp, hparse]
    simp only [Attempt.runFrom_bind, Attempt.runFrom_outcome, h.register]
    rfl
  rw [run_register, hform]
  dsimp only
  rw [hsignUp]

theorem SessionLayer.serve_congr_runs {layer : SessionLayer σ} {handler other : Handler (Visit β)}
    {server : Server σ β}
    (h : ∀ handle, handler.run request ⟨handle, server.backing⟩ =
      other.run request ⟨handle, server.backing⟩) (fresh : SessionToken) :
    layer.serve handler request fresh server = layer.serve other request fresh server := by
  rcases hstart : (layer.start request).runFrom server.sessions with ⟨error | stored, loaded⟩
  · simp only [SessionLayer.serve, hstart]
  · exact serve_congr hstart (h _)

theorem AccountService.serve_alwaysTaken (service : AccountService σ β) {server : Server σ β}
    (hregister : AccountService.IsRegister request)
    (hform : CredentialsForm.ofRequest request = .ok form)
    (hparse : form.parse = .ok (name, password))
    (hfound : service.credentials.FoundTaken name password server.backing after)
    (fresh : SessionToken) :
    (AccountService.app { service with credentials := service.credentials.alwaysTaken after }).serve
        request fresh server =
      service.app.serve request fresh server := by
  have halways : (service.credentials.alwaysTaken after).FoundTaken name password server.backing
      after := .known rfl
  rw [serve_post hregister.1 (.inr rfl) hregister.2, serve_post hregister.1 (.inr rfl) hregister.2]
  refine SessionLayer.serve_congr_runs (fun handle => ?_) fresh
  rw [run_handler_register hregister, run_handler_register hregister,
    AccountPages.run_register_of_foundTaken hform hparse halways,
    AccountPages.run_register_of_foundTaken hform hparse hfound]
  rfl

end

/-- How supplies fail shows in nothing. Where the same calls fail, whatever of and however, every
request is answered alike and leaves the same behind. Once a call has failed, the answer is the page
of failures; without that, nothing that failing calls could have answered or done makes a
difference. Told are two errors: a session that is corrupt is as good as none, and a registration
that finds its name taken by an error ends as if the name had been known to be taken. -/
theorem failures_untold (kind : AppKind) (cookie : SessionCookie) (supplies : Supplies σ β)
    (request : Request) (fresh : SessionToken) (server : Server σ β) :
    let serve := fun others : Supplies σ β => (kind.app cookie others).serve request fresh server
    let watched := (kind.app cookie supplies.watched).serve request fresh server.watched
    (∀ others, supplies.FailAlike others → serve others = serve supplies) ∧
    (watched.1, watched.2.unwatched) = serve supplies ∧
    (watched.2.CallFailed → (serve supplies).1.IsFailureOf request) ∧
    (∀ others, supplies.AgreeUnlessFailing others →
      serve others = serve supplies ∨ (serve supplies).1.IsFailureOf request) ∧
    serve { supplies with sessions := supplies.sessions.forgiving } = serve supplies ∧
    ∀ form name password after, AccountService.IsRegister request →
      CredentialsForm.ofRequest request = .ok form → form.parse = .ok (name, password) →
      supplies.credentials.FoundTaken name password server.backing after →
      serve { supplies with credentials := supplies.credentials.alwaysTaken after } =
        serve supplies := by
  intro serve watched
  refine ⟨?_, serve_watched kind cookie request fresh server,
    isFailureOf_of_callFailed kind cookie request fresh server, ?_, ?_, ?_⟩
  · intro others h
    exact serve_of_failAlike kind cookie request fresh server h
  · intro others h
    exact serve_of_agreeUnlessFailing kind cookie request fresh server h
  · have hagree : (kind.app cookie supplies).Agree .failsToo Eq Eq
        (kind.app cookie { supplies with sessions := supplies.sessions.forgiving }) :=
      kind.agree_app (SessionLayer.agree_forgiving supplies.sessions cookie)
        (.refl supplies.credentials) (.refl supplies.todos) (.refl supplies.renderer)
    exact (hagree.serve_same_or_failed request fresh server).resolve_right fun hfailed =>
      nomatch hfailed.1
  · intro form name password after hregister hform hparse hfound
    cases kind with
    | minesweeper board =>
      exact AccountService.serve_alwaysTaken
        ⟨.minesweeper board, ⟨supplies.sessions, cookie⟩, supplies.credentials, supplies.renderer⟩
        hregister hform hparse hfound fresh
    | userSystem =>
      exact AccountService.serve_alwaysTaken
        ⟨.userSystem, ⟨supplies.sessions, cookie⟩, supplies.credentials, supplies.renderer⟩
        hregister hform hparse hfound fresh
    | todoList => rfl

def Supplies.down (credential : CredentialError) (todo : TodoError) (session : SessionStoreError)
    (reason : String) : Supplies Unit Unit where
  sessions := ⟨fun _ => throw session, fun _ _ => throw session, fun _ => throw session⟩
  credentials :=
    { find := fun _ => throw credential
      get := fun _ => throw credential
      isTaken := fun _ => throw credential
      create := fun _ _ => throw credential
      verify := fun _ _ => throw credential }
  todos := .failing todo
  renderer := .failing reason

theorem failures_untold_samples :
    let down := Supplies.down (.unavailable "disk gone") (.unavailable "disk gone")
      (.database "disk gone") "disk gone"
    let others := Supplies.down (.unexpected "no route") (.notPersisted "no route")
      (.database "no route") "no route"
    let readable := { down with todos := { down.todos with list := pure [] } }
    let racing := { down with
      credentials := { down.credentials with
        isTaken := fun _ => pure false
        create := fun _ _ => throw .userAlreadyExists } }
    let serve := fun (kind : AppKind) (supplies : Supplies Unit Unit) (request : Request) =>
      (kind.app .sample supplies).serve request ⟨1⟩ ⟨(), ()⟩
    let home := AccountPages.sampleGet .home
    let form := AccountPages.samplePost .register []
    serve .todoList others home = serve .todoList down home ∧
      (serve .todoList down home).1.IsFailureOf home ∧
      (serve .todoList readable home = serve .todoList down home ∨
        (serve .todoList down home).1.IsFailureOf home) ∧
      serve .userSystem { racing with credentials := racing.credentials.alwaysTaken () } form =
        serve .userSystem racing form := by
  intro down others readable racing serve home form
  have halike : down.FailAlike others :=
    { sessions := ⟨fun _ => .throw rfl, fun _ _ => .throw rfl, fun _ => .throw rfl⟩
      credentials := ⟨fun _ => .throw rfl, fun _ => .throw rfl, fun _ => .throw rfl,
        fun _ _ => .throw rfl, fun _ _ => .throw rfl⟩
      todos := ⟨.throw rfl, fun _ => .throw rfl⟩
      renderer := fun _ => .error _ _ }
  have hreadable : down.AgreeUnlessFailing readable :=
    { sessions := .refl _
      credentials := .refl _
      todos := ⟨fun _ _ _ => .alone rfl rfl, fun _ => .refl _⟩
      renderer := .refl _ }
  have hfailed : (((AppKind.todoList.app .sample down.watched).serve home ⟨1⟩
      (Server.watched ⟨(), ()⟩)).2).CallFailed := by
    rw [App.serve, show assets.below? home.path = none from Route.below?_path .home]
    exact .inr rfl
  obtain ⟨hsame, -, hcalled, hunless, -⟩ :=
    failures_untold .todoList .sample down home ⟨1⟩ ⟨(), ()⟩
  obtain ⟨-, -, -, -, -, htaken⟩ := failures_untold .userSystem .sample racing form ⟨1⟩ ⟨(), ()⟩
  exact ⟨hsame others halike, hcalled hfailed, hunless readable hreadable,
    htaken ⟨"al", "pw"⟩ AccountPages.sampleName ⟨"pw", by decide⟩ () ⟨rfl, rfl⟩
      (AccountPages.ofRequest_samplePost .register []) AccountPages.parse_samplePost
      (.added rfl rfl)⟩

end Gatehouse
