import Gatehouse.Proofs.Http.Cookieless
import Gatehouse.Proofs.Session.KeyValue
import Gatehouse.Proofs.Session.Spelling
import Gatehouse.Proofs.Site.Untold

set_option autoImplicit false

/-!
# Sessions behind spelled tokens

However a client spells the token in its cookie, it is the same visitor: requests that differ in the
spelling only have the same session, the same answer and the same effect.
-/

namespace Gatehouse

variable {σ β : Type} {request other : Request}

/-- A request presents a token, in whatever spelling. -/
def SessionCookie.Presents (cookie : SessionCookie) (token : SessionToken) (request : Request) :
    Prop :=
  ∃ text, Cookie.value? cookie.name request = some text ∧ token.SpelledBy text

theorem SessionCookie.presents_iff {cookie : SessionCookie} {token : SessionToken} :
    cookie.Presents token request ↔ cookie.token? request = some token := by
  simp only [Presents, token?, Option.bind_eq_some_iff, SessionToken.ofText?_eq_some_iff]

namespace App

structure IgnoresCookies (app : App σ β) : Prop where
  endpoints : ∀ entry ∈ app.endpoints, entry.2.IgnoresCookies
  openPaths : ∀ entry ∈ app.openPaths, entry.2.All Handler.IgnoresCookies

variable {app : App σ β}

theorem serveInside_of_withoutCookies (h : app.IgnoresCookies) {layer : SessionLayer σ}
    (hrest : request.withoutCookies = other.withoutCookies)
    (htoken : layer.cookie.token? request = layer.cookie.token? other) (fresh : SessionToken)
    (server : Server σ β) :
    app.serveInside layer request fresh server = app.serveInside layer other fresh server := by
  rw [serveInside, serveInside, Request.path_eq_of_withoutCookies hrest]
  cases hlookup : app.endpoints.lookup other.path with
  | none =>
    have hunknown : (unknownPath : Handler (Visit β)).IgnoresCookies := fun _ => rfl
    exact layer.serve_of_withoutCookies hunknown hrest htoken fresh server
  | some endpoint =>
    have hendpoint := h.endpoints _ (mem_of_lookup hlookup)
    dsimp only
    rw [layer.serve_of_withoutCookies hendpoint.handle hrest htoken,
      endpoint.nameIn_of_withoutCookies hrest]

theorem servePath_of_withoutCookies (h : app.IgnoresCookies)
    (hrest : request.withoutCookies = other.withoutCookies)
    (htoken : ∀ layer ∈ app.sessions,
      layer.cookie.token? request = layer.cookie.token? other) (fresh : SessionToken)
    (server : Server σ β) :
    app.servePath request fresh server = app.servePath other fresh server := by
  rw [servePath, servePath, Request.path_eq_of_withoutCookies hrest]
  cases hlookup : app.openPaths.lookup other.path with
  | none =>
    cases hsessions : app.sessions with
    | none => rfl
    | some layer =>
      exact serveInside_of_withoutCookies h hrest (htoken layer hsessions) fresh server
  | some methods =>
    have hmethods := h.openPaths _ (mem_of_lookup hlookup)
    dsimp only
    rw [Handler.run, Handler.run, hmethods.handle.eq hrest,
      methods.nameIn_of_withoutCookies hrest]

theorem serve_of_withoutCookies (h : app.IgnoresCookies)
    (hrest : request.withoutCookies = other.withoutCookies)
    (htoken : ∀ layer ∈ app.sessions,
      layer.cookie.token? request = layer.cookie.token? other) (fresh : SessionToken)
    (server : Server σ β) :
    app.serve request fresh server = app.serve other fresh server := by
  have hdrops : request.dropsBody = other.dropsBody := by
    funext status
    rw [Request.dropsBody, Request.dropsBody, Request.isHead, Request.isHead,
      Request.method_eq_of_withoutCookies hrest]
  have hassets (path : String) : assets.serve request path = assets.serve other path := by
    rw [← assets.serve_withoutCookies request, hrest, assets.serve_withoutCookies]
  rw [serve, serve, Request.path_eq_of_withoutCookies hrest,
    servePath_of_withoutCookies h hrest htoken, hdrops]
  simp only [hassets]

end App

theorem AccountPages.withForm_ignoresCookies
    (handler : CredentialsForm → Attempt AppError (Visit β) Response) :
    (withForm handler).IgnoresCookies := by
  intro request
  rw [withForm, withForm, CredentialsForm.ofRequest, Form.ofRequest_withoutCookies]
  rfl

theorem TodoList.add_ignoresCookies (site : TodoList β) : site.add.IgnoresCookies := by
  intro request
  rw [add, add, NewTodo.ofRequest, Form.ofRequest_withoutCookies]
  rfl

theorem AppKind.ignoresCookies (kind : AppKind) (cookie : SessionCookie)
    (supplies : Supplies σ β) : (kind.app cookie supplies).IgnoresCookies := by
  -- The handlers of forms look at the request. The others do not, so that both sides are one term.
  have hform := @AccountPages.withForm_ignoresCookies β
  cases kind with
  | minesweeper board =>
    refine ⟨?_, List.forall_mem_nil _⟩
    refine List.forall_mem_cons.2 ⟨.free (.getPost (fun _ => rfl) (hform _)), ?_⟩
    refine List.forall_mem_cons.2 ⟨.free (.getPost (fun _ => rfl) (hform _)), ?_⟩
    refine List.forall_mem_cons.2 ⟨.gated {} (.get fun _ _ => rfl), ?_⟩
    refine List.forall_mem_cons.2 ⟨.gated {} (.get fun _ _ => rfl), ?_⟩
    exact List.forall_mem_singleton.2 (.gated {} (.get fun _ _ => rfl))
  | userSystem =>
    refine ⟨?_, List.forall_mem_nil _⟩
    refine List.forall_mem_cons.2 ⟨.free (.get fun _ => rfl), ?_⟩
    refine List.forall_mem_cons.2 ⟨.free (.getPost (fun _ => rfl) (hform _)), ?_⟩
    refine List.forall_mem_cons.2 ⟨.free (.getPost (fun _ => rfl) (hform _)), ?_⟩
    refine List.forall_mem_cons.2 ⟨.free (.get fun _ => rfl), ?_⟩
    exact List.forall_mem_singleton.2 (.gated {} (.get fun _ _ => rfl))
  | todoList =>
    refine ⟨List.forall_mem_nil _, ?_⟩
    refine List.forall_mem_cons.2 ⟨.get fun _ => rfl, ?_⟩
    exact List.forall_mem_singleton.2 (.getPost (fun _ => rfl) (TodoList.add_ignoresCookies _))

theorem AppKind.cookie_of_sessions (kind : AppKind) {cookie : SessionCookie}
    {supplies : Supplies σ β} {layer : SessionLayer σ}
    (h : layer ∈ (kind.app cookie supplies).sessions) : layer.cookie = cookie := by
  cases kind with
  | minesweeper board =>
    cases h
    rfl
  | userSystem =>
    cases h
    rfl
  | todoList => cases h

/-- A token is read from its four forms in any letter case and from nothing else, and one of them in
lower case is its text. Other tokens have other keys. Whichever spelling a cookie has, the session is
the one that is kept under the token, and every site gives the same answer and leaves the same
behind. -/
theorem tokens_known_by_spellings (token : SessionToken) :
    SessionToken.ofText? (toString token) = some token ∧
    toString token = token.canonical ∧
    (∀ text, SessionToken.ofText? text = some token ↔ token.SpelledBy text) ∧
    (∀ other, other ≠ token → KeyValueSessions.key other ≠ KeyValueSessions.key token) ∧
    (∀ (layer : SessionLayer σ) (request : Request), layer.cookie.Presents token request →
      layer.start request = layer.load token) ∧
    ∀ (kind : AppKind) (cookie : SessionCookie) (supplies : Supplies σ β)
      (request other : Request) (fresh : SessionToken) (server : Server σ β),
      cookie.Presents token request → cookie.Presents token other →
      request.withoutCookies = other.withoutCookies →
      (kind.app cookie supplies).serve request fresh server =
        (kind.app cookie supplies).serve other fresh server := by
  refine ⟨token.ofText?_toString, token.toString_eq_canonical,
    fun text => SessionToken.ofText?_eq_some_iff, ?_, ?_, ?_⟩
  · intro other hne hkey
    exact hne (KeyValueSessions.key_inj hkey)
  · intro layer request hpresents
    exact layer.start_of_token? (SessionCookie.presents_iff.1 hpresents)
  · intro kind cookie supplies request other fresh server hrequest hother hrest
    refine App.serve_of_withoutCookies (kind.ignoresCookies cookie supplies) hrest ?_ fresh server
    intro layer hlayer
    rw [kind.cookie_of_sessions hlayer, SessionCookie.presents_iff.1 hrequest,
      SessionCookie.presents_iff.1 hother]

theorem tokens_known_by_spellings_sample :
    let token : SessionToken := ⟨0x936da01f9abd4d9d80c702af85c822a8⟩
    let visit := fun spelling : String =>
      { AccountPages.sampleGet .home with headers := [⟨"cookie", "s" ++ "=" ++ spelling⟩] }
    let bare := visit "936DA01F9ABD4D9D80C702AF85C822A8"
    let named := visit "urn:UUID:936da01f-9ABD-4d9d-80c7-02af85c822a8"
    let supplies : Supplies MemorySessions (Salted UserTable) :=
      ⟨MemorySessions.store 60,
        MemoryCredentials.store .plaintext fun _ => ⟨List.replicate 16 0, rfl⟩,
        .failing (.unavailable "closed"), Html.renderer⟩
    let layer : SessionLayer MemorySessions := ⟨supplies.sessions, .sample⟩
    let server : Server MemorySessions (Salted UserTable) :=
      ⟨MemorySessions.save 60 token { flashes := [⟨.success, "Hello"⟩] } {}, ⟨.empty, 0⟩⟩
    KeyValueSessions.key ⟨1⟩ ≠ KeyValueSessions.key token ∧
      layer.start named = layer.load token ∧
      (AppKind.userSystem.app .sample supplies).serve bare ⟨1⟩ server =
        (AppKind.userSystem.app .sample supplies).serve named ⟨1⟩ server := by
  intro token visit bare named supplies layer server
  have hbare : SessionCookie.sample.Presents token bare :=
    ⟨_, Cookie.value?_of_shown (by decide) (by decide) (by decide) (by decide) rfl, .bare, by cbv⟩
  have hnamed : SessionCookie.sample.Presents token named :=
    ⟨_, Cookie.value?_of_shown (by decide) (by decide) (by decide) (by decide) rfl, .named, by cbv⟩
  obtain ⟨-, -, -, hkeys, hstart, hserve⟩ :=
    tokens_known_by_spellings (σ := MemorySessions) (β := Salted UserTable) token
  exact ⟨hkeys ⟨1⟩ (by decide), hstart layer named hnamed,
    hserve .userSystem .sample supplies bare named ⟨1⟩ server hbare hnamed rfl⟩

end Gatehouse
