import Gatehouse.Http.SessionLayer
import Gatehouse.Proofs.Agreement
import Gatehouse.Proofs.Http.Handler
import Mathlib.Data.List.Forall2

set_option autoImplicit false

/-!
# Answers that agree

Handlers, endpoints and the session layer over supplies that agree. Of a failure of the server
nothing is told, so that answers are the same, or the first is the page of failures and nothing
else.
-/

namespace Gatehouse

variable {σ σ' τ τ' β β' : Type} {partner : Partner} {related : σ → σ' → Prop}
  {kept : β → β' → Prop}

/-- The page of failures. Cookies and the methods of the path may be added to it. -/
def Response.IsFailure (response : Response) : Prop :=
  response =
    { Response.serverError with allow := response.allow, setCookies := response.setCookies }

theorem Response.isFailure_serverError : Response.serverError.IsFailure := rfl

/-- A response and what is left behind, next to another: they are the same, unless the second is
left to itself because the first is a failure. -/
inductive Answer.Agree (partner : Partner) (failed : Response → Prop) (related : σ → σ' → Prop) :
    Response × σ → Response × σ' → Prop
  | same (response : Response) {state : σ} {other : σ'} (hstates : related state other) :
      Agree partner failed related (response, state) (response, other)
  | alone {response : Response} {state : σ} {answer : Response × σ'}
      (hpartner : partner = .anything) (hfailed : failed response) :
      Agree partner failed related (response, state) answer

theorem Answer.Agree.same_or_failed {failed : Response → Prop} {answer : Response × σ}
    {answer' : Response × σ'} (h : Answer.Agree partner failed related answer answer') :
    (answer.1 = answer'.1 ∧ related answer.2 answer'.2) ∨
      partner = .anything ∧ failed answer.1 := by
  cases h with
  | same response hstates => exact .inl ⟨rfl, hstates⟩
  | alone hpartner hfailed => exact .inr ⟨hpartner, hfailed⟩

theorem Answer.Agree.mapResponse {failed failed' : Response → Prop} {answer : Response × σ}
    {answer' : Response × σ'} (h : Answer.Agree partner failed related answer answer')
    (change : Response → Response) (hfailed : ∀ response, failed response → failed' (change response)) :
    Answer.Agree partner failed' related (change answer.1, answer.2) (change answer'.1, answer'.2) := by
  cases h with
  | same response hstates => exact .same _ hstates
  | alone hpartner hresponse => exact .alone hpartner (hfailed _ hresponse)

def Handler.Agree (partner : Partner) (related : σ → σ' → Prop) (handler : Handler σ)
    (other : Handler σ') : Prop :=
  ∀ request, Attempt.Agree partner Attempt.untold related (handler request) (other request)

theorem Handler.Agree.run {handler : Handler σ} {other : Handler σ'} {state : σ} {state' : σ'}
    (h : handler.Agree partner related other) (hstates : related state state')
    (request : Request) :
    Answer.Agree partner Response.IsFailure related (handler.run request state)
      (other.run request state') := by
  have hrun := h request state state' hstates
  rw [Handler.run, Handler.run]
  generalize (handler request).runFrom state = result at hrun ⊢
  generalize (other request).runFrom state' = result' at hrun ⊢
  cases hrun with
  | ok response hafter => exact .same response hafter
  | error herror hafter => exact .same Response.serverError hafter
  | alone hpartner herror => exact .alone hpartner Response.isFailure_serverError

/-- What two renderers make of one view. -/
inductive Rendering.Agree (partner : Partner) :
    Except RenderError String → Except RenderError String → Prop
  | ok (html : String) : Agree partner (.ok html) (.ok html)
  | error (error error' : RenderError) : Agree partner (.error error) (.error error')
  | alone {error : RenderError} {other : Except RenderError String}
      (hpartner : partner = .anything) : Agree partner (.error error) other

def Renderer.Agree (partner : Partner) (renderer other : Renderer) : Prop :=
  ∀ view, Rendering.Agree partner (renderer.render view) (other.render view)

theorem Renderer.Agree.refl (renderer : Renderer) : renderer.Agree partner renderer := by
  intro view
  rcases renderer.render view with error | html
  · exact .error error error
  · exact .ok html

theorem Renderer.Agree.send {renderer other : Renderer} (h : renderer.Agree partner other)
    (page : Page) :
    Attempt.Agree partner Attempt.untold related (page.send renderer) (page.send other) := by
  intro state state' hstates
  rw [Page.runFrom_send, Page.runFrom_send]
  cases page with
  | render view =>
    have hview := h view
    rw [Page.respond, Page.respond]
    generalize renderer.render view = rendered at hview ⊢
    generalize other.render view = rendered' at hview ⊢
    cases hview with
    | ok html => exact .ok _ hstates
    | error error error' => exact .error rfl hstates
    | alone hpartner => exact .alone hpartner rfl
  | redirect route => exact .ok _ hstates

namespace Visit

def Related (kept : β → β' → Prop) (visit : Visit β) (other : Visit β') : Prop :=
  visit.handle = other.handle ∧ kept visit.backing other.backing

variable {ε ω α : Type} {told : ε → Option ω}

theorem agree_session :
    Attempt.Agree partner told (Related kept) (session : Attempt ε (Visit β) Session) session := by
  intro visit other hvisits
  rw [runFrom_session, runFrom_session, hvisits.1]
  exact .ok _ hvisits

theorem agree_update (f : Session → Session) :
    Attempt.Agree partner told (Related kept) (update f : Attempt ε (Visit β) Unit)
      (update f) := by
  intro visit other hvisits
  rw [runFrom_update, runFrom_update, hvisits.1]
  exact .ok _ ⟨rfl, hvisits.2⟩

theorem agree_commit (session : Session) :
    Attempt.Agree partner told (Related kept) (commit session : Attempt ε (Visit β) Unit)
      (commit session) := by
  intro visit other hvisits
  rw [runFrom_commit, runFrom_commit, hvisits.1]
  exact .ok _ ⟨rfl, hvisits.2⟩

theorem agree_takeFlashes :
    Attempt.Agree partner told (Related kept) (takeFlashes : Attempt ε (Visit β) (List Flash))
      takeFlashes := by
  intro visit other hvisits
  rw [runFrom_takeFlashes, runFrom_takeFlashes, hvisits.1]
  exact .ok _ ⟨rfl, hvisits.2⟩

theorem agree_inBacking {attempt : Attempt ε β α} {other : Attempt ε β' α}
    (h : Attempt.Agree partner told kept attempt other) :
    Attempt.Agree partner told (Related kept) (inBacking attempt) (inBacking other) :=
  h.onPart (fun hvisits => hvisits.2) fun hvisits hafter => ⟨hvisits.1, hafter⟩

end Visit

/-- The same methods, with handlers that agree. -/
inductive Methods.Agree {α α' : Type} (agree : α → α' → Prop) : Methods α → Methods α' → Prop
  | get {handler : α} {other : α'} (h : agree handler other) :
      Agree agree (.get handler) (.get other)
  | getPost {handler post : α} {other other' : α'} (h : agree handler other)
      (hpost : agree post other') : Agree agree (.getPost handler post) (.getPost other other')
  | any {handler : α} {other : α'} (h : agree handler other) :
      Agree agree (.any handler) (.any other)

namespace Methods.Agree

variable {α α' γ γ' : Type} {agree : α → α' → Prop} {methods : Methods α} {other : Methods α'}

theorem map {agree' : γ → γ' → Prop} {f : α → γ} {f' : α' → γ'}
    (hf : ∀ {handler handler'}, agree handler handler' → agree' (f handler) (f' handler'))
    (h : methods.Agree agree other) : (methods.map f).Agree agree' (other.map f') := by
  cases h with
  | get h => exact .get (hf h)
  | getPost h hpost => exact .getPost (hf h) (hf hpost)
  | any h => exact .any (hf h)

theorem select (h : methods.Agree agree other) (method : String) :
    Option.Rel agree (methods.select method) (other.select method) := by
  cases h with
  | get h =>
    rw [Methods.select, Methods.select]
    split
    · exact .some h
    · exact .none
  | getPost h hpost =>
    rw [Methods.select, Methods.select]
    split
    · exact .some h
    · split
      · exact .some hpost
      · exact .none
  | any h => exact .some h

theorem nameIn (h : methods.Agree agree other) : methods.nameIn = other.nameIn := by
  funext request response
  have hselect := h.select request.method
  have hallow : methods.allow = other.allow := by cases h <;> rfl
  rw [Methods.nameIn, Methods.nameIn, hallow]
  generalize methods.select request.method = selected at hselect ⊢
  generalize other.select request.method = selected' at hselect ⊢
  cases hselect <;> rfl

theorem isFailure_nameIn (methods : Methods α) (request : Request) {response : Response}
    (h : response.IsFailure) : (methods.nameIn request response).IsFailure := by
  rw [Methods.nameIn]
  cases methods.select request.method with
  | some handler => exact h
  | none =>
    rw [h]
    rfl

theorem handle {methods : Methods (Handler σ)} {other : Methods (Handler σ')}
    (h : methods.Agree (Handler.Agree partner related) other) :
    methods.handle.Agree partner related other.handle := by
  intro request
  have hselect := h.select request.method
  rw [Methods.handle, Methods.handle]
  generalize methods.select request.method = selected at hselect ⊢
  generalize other.select request.method = selected' at hselect ⊢
  cases hselect with
  | some h => exact h request
  | none => exact .pure _

end Methods.Agree

/-- The same gate or none, and methods that agree for whomever it lets through. -/
inductive Endpoint.Agree (partner : Partner) (kept : β → β' → Prop) :
    Endpoint β → Endpoint β' → Prop
  | free {methods : Methods (Handler (Visit β))} {other : Methods (Handler (Visit β'))}
      (h : methods.Agree (Handler.Agree partner (Visit.Related kept)) other) :
      Agree partner kept (.free methods) (.free other)
  | gated {methods : Methods (Principal → Handler (Visit β))}
      {other : Methods (Principal → Handler (Visit β'))} (gate : SessionGate)
      (h : methods.Agree (fun handler handler' => ∀ principal,
        (handler principal).Agree partner (Visit.Related kept) (handler' principal)) other) :
      Agree partner kept (.gated gate methods) (.gated gate other)

namespace Endpoint.Agree

variable {endpoint : Endpoint β} {other : Endpoint β'}

theorem handle (h : endpoint.Agree partner kept other) :
    endpoint.handle.Agree partner (Visit.Related kept) other.handle := by
  cases h with
  | free h => exact h.handle
  | gated gate h =>
    intro request
    refine .bind Visit.agree_session fun session => ?_
    cases gate.check session with
    | ok principal => exact (h.map fun hhandler => hhandler principal).handle request
    | error route => exact .pure _

theorem isFailure_nameIn (endpoint : Endpoint β) (request : Request) {response : Response}
    (h : response.IsFailure) : (endpoint.nameIn request response).IsFailure := by
  cases endpoint with
  | free methods => exact Methods.Agree.isFailure_nameIn methods request h
  | gated gate methods => exact Methods.Agree.isFailure_nameIn methods request h

theorem nameIn (h : endpoint.Agree partner kept other) : endpoint.nameIn = other.nameIn := by
  cases h with
  | free h => exact h.nameIn
  | gated gate h => exact h.nameIn

end Endpoint.Agree

def SessionStoreError.corruption? : SessionStoreError → Option Unit
  | .corrupt _ => some ()
  | .database _ => none

/-- Nobody is told more of a store of sessions than that a session is corrupt. -/
structure SessionStore.Agree (partner : Partner) (related : σ → σ' → Prop)
    (store : SessionStore σ) (other : SessionStore σ') : Prop where
  load : ∀ token,
    Attempt.Agree partner SessionStoreError.corruption? related (store.load token)
      (other.load token)
  save : ∀ token session,
    Attempt.Agree partner Attempt.untold related (store.save token session)
      (other.save token session)
  remove : ∀ token,
    Attempt.Agree partner Attempt.untold related (store.remove token)
      (other.remove token)

theorem SessionStore.Agree.refl (store : SessionStore σ) : store.Agree partner Eq store where
  load _ := .refl _
  save _ _ := .refl _
  remove _ := .refl _

def Server.Related (related : σ → σ' → Prop) (kept : β → β' → Prop) (server : Server σ β)
    (other : Server σ' β') : Prop :=
  related server.sessions other.sessions ∧ kept server.backing other.backing

theorem Server.eq_of_related {server other : Server σ β} (h : server.Related Eq Eq other) :
    server = other := by
  obtain ⟨hsessions, hbacking⟩ := h
  cases server
  cases other
  cases hsessions
  cases hbacking
  rfl

namespace SessionLayer

/-- Layers with one cookie. What they load, save and remove agrees, and no failure is told. -/
structure Agree (partner : Partner) (related : σ → σ' → Prop) (layer : SessionLayer σ)
    (other : SessionLayer σ') : Prop where
  cookie : layer.cookie = other.cookie
  load : ∀ token,
    Attempt.Agree partner Attempt.untold related (layer.load token)
      (other.load token)
  save : ∀ token session,
    Attempt.Agree partner Attempt.untold related
      (layer.store.save token session) (other.store.save token session)
  remove : ∀ token,
    Attempt.Agree partner Attempt.untold related (layer.store.remove token)
      (other.store.remove token)

variable {layer : SessionLayer σ} {other : SessionLayer σ'}

theorem agree_of_store {store : SessionStore σ} {store' : SessionStore σ'} {cookie : SessionCookie}
    (h : store.Agree partner related store') :
    (SessionLayer.mk store cookie).Agree partner related ⟨store', cookie⟩ where
  cookie := rfl
  load token := by
    refine (h.load token).outcome_bind ?_ ?_ ?_ ?_
    · intro session
      exact .pure _
    · intro error error' _ hcorrupt hcorrupt'
      cases error with
      | database reason => cases hcorrupt
      | corrupt reason =>
        cases error' with
        | database reason => cases hcorrupt'
        | corrupt reason => exact (h.remove token).bind fun _ => .pure _
    · intro error huntold
      cases error with
      | database reason => exact ⟨_, rfl, rfl⟩
      | corrupt reason => cases huntold
    · intro error huntold
      cases error with
      | database reason => exact ⟨_, rfl, rfl⟩
      | corrupt reason => cases huntold
  save := h.save
  remove := h.remove

namespace Agree

variable (h : layer.Agree partner related other)

include h

theorem start (request : Request) :
    Attempt.Agree partner Attempt.untold related (layer.start request)
      (other.start request) := by
  rw [SessionLayer.start, SessionLayer.start, h.cookie]
  cases other.cookie.token? request with
  | some token => exact h.load token
  | none => exact .pure none

theorem writeBack (stored : Option StoredSession) (fresh : SessionToken)
    (handle : SessionHandle) :
    Attempt.Agree partner Attempt.untold related
      (layer.writeBack stored fresh handle) (other.writeBack stored fresh handle) := by
  unfold SessionLayer.writeBack
  generalize handle.changed? = changed
  cases changed with
  | none => exact .pure _
  | some session =>
    cases stored with
    | none =>
      dsimp only
      rw [saveNew, saveNew]
      split
      · exact .pure _
      · exact (h.save fresh session).bind fun _ => .pure _
    | some found =>
      dsimp only
      rw [saveChanged, saveChanged]
      split
      · exact (h.remove found.1).bind fun _ => .pure _
      · split
        · exact (h.remove found.1).bind fun _ => (h.save fresh session).bind fun _ => .pure _
        · exact (h.save found.1 session).bind fun _ => .pure _

end Agree

theorem settle_isFailure {response : Response} (h : response.IsFailure)
    (result : Except SessionStoreError CookieChange) : (layer.settle response result).IsFailure := by
  cases result with
  | ok change =>
    rw [settle, h]
    rfl
  | error error => exact Response.isFailure_serverError

theorem Agree.finish (h : layer.Agree partner related other) {handler : Handler (Visit β)}
    {handler' : Handler (Visit β')}
    (hhandler : handler.Agree partner (Visit.Related kept) handler') (request : Request)
    (fresh : SessionToken) (stored : Option StoredSession) {server : Server σ β}
    {server' : Server σ' β'} (hservers : server.Related related kept server') :
    Answer.Agree partner Response.IsFailure (Server.Related related kept)
      (layer.finish handler request fresh stored server)
      (other.finish handler' request fresh stored server') := by
  have hrun : Answer.Agree partner Response.IsFailure (Visit.Related kept)
      (handler.run request ⟨.new (given stored), server.backing⟩)
      (handler'.run request ⟨.new (given stored), server'.backing⟩) :=
    hhandler.run ⟨rfl, hservers.2⟩ request
  rw [SessionLayer.finish, SessionLayer.finish]
  generalize handler.run request ⟨.new (given stored), server.backing⟩ = answer at hrun ⊢
  generalize handler'.run request ⟨.new (given stored), server'.backing⟩ = answer' at hrun ⊢
  cases hrun with
  | @same response visit visit' hvisits =>
    have hwrite := h.writeBack stored fresh visit.handle _ _ hservers.1
    dsimp only
    rw [← hvisits.1]
    generalize (layer.writeBack stored fresh visit.handle).runFrom server.sessions = written
      at hwrite ⊢
    generalize (other.writeBack stored fresh visit.handle).runFrom server'.sessions = written'
      at hwrite ⊢
    cases hwrite with
    | ok change hafter =>
      dsimp only [settle, cookieHeaders]
      rw [h.cookie]
      exact .same _ ⟨hafter, hvisits.2⟩
    | error herror hafter => exact .same Response.serverError ⟨hafter, hvisits.2⟩
    | alone hpartner herror => exact .alone hpartner Response.isFailure_serverError
  | alone hpartner hfailure => exact .alone hpartner (settle_isFailure hfailure _)

theorem Agree.serve (h : layer.Agree partner related other) {handler : Handler (Visit β)}
    {handler' : Handler (Visit β')}
    (hhandler : handler.Agree partner (Visit.Related kept) handler') (request : Request)
    (fresh : SessionToken) {server : Server σ β} {server' : Server σ' β'}
    (hservers : server.Related related kept server') :
    Answer.Agree partner Response.IsFailure (Server.Related related kept)
      (layer.serve handler request fresh server) (other.serve handler' request fresh server') := by
  have hstart := h.start request _ _ hservers.1
  rw [SessionLayer.serve, SessionLayer.serve]
  generalize (layer.start request).runFrom server.sessions = started at hstart ⊢
  generalize (other.start request).runFrom server'.sessions = started' at hstart ⊢
  cases hstart with
  | ok stored hloaded => exact h.finish hhandler request fresh stored ⟨hloaded, hservers.2⟩
  | error herror hloaded => exact .same Response.serverError ⟨hloaded, hservers.2⟩
  | alone hpartner herror => exact .alone hpartner Response.isFailure_serverError

end SessionLayer

end Gatehouse
