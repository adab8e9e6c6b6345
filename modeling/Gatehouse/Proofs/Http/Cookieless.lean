import Gatehouse.Http.SessionLayer
import Gatehouse.Http.StaticFiles

set_option autoImplicit false

/-!
# Requests without their cookies

Only the session layer looks at the cookies of a request, and only for the token in them. What a
handler does is the same for requests that differ in nothing else.
-/

namespace Gatehouse

variable {σ β : Type} {request other : Request}

def Request.withoutCookies (request : Request) : Request :=
  { request with headers := request.headers.filter fun header => header.name != "cookie" }

namespace Request

theorem valuesOf_withoutCookies (request : Request) (name : String) (h : name ≠ "cookie") :
    request.withoutCookies.valuesOf name = request.valuesOf name := by
  rw [valuesOf, valuesOf, withoutCookies, List.filter_filter]
  congr 1
  refine List.filter_congr fun header _ => ?_
  by_cases hname : header.name = name
  · simp [hname, h]
  · simp [hname]

theorem plainValue?_withoutCookies (request : Request) (name : String) (h : name ≠ "cookie") :
    request.withoutCookies.plainValue? name = request.plainValue? name := by
  rw [plainValue?, plainValue?, valuesOf_withoutCookies request name h]

theorem method_eq_of_withoutCookies (h : request.withoutCookies = other.withoutCookies) :
    request.method = other.method := by
  have hmethod : request.withoutCookies.method = other.withoutCookies.method := by rw [h]
  exact hmethod

theorem path_eq_of_withoutCookies (h : request.withoutCookies = other.withoutCookies) :
    request.path = other.path := by
  have hpath : request.withoutCookies.path = other.withoutCookies.path := by rw [h]
  exact hpath

end Request

theorem Methods.nameIn_of_withoutCookies {α : Type} (methods : Methods α)
    (h : request.withoutCookies = other.withoutCookies) :
    methods.nameIn request = methods.nameIn other := by
  funext response
  rw [nameIn, nameIn, Request.method_eq_of_withoutCookies h]

theorem Form.ofRequest_withoutCookies (names : List String) (request : Request) :
    Form.ofRequest names request.withoutCookies = Form.ofRequest names request := by
  have htype := request.plainValue?_withoutCookies "content-type" (by decide)
  rw [Form.ofRequest, Form.ofRequest, htype]
  rfl

theorem StaticFiles.serve_withoutCookies (served : StaticFiles) (request : Request)
    (path : String) : served.serve request.withoutCookies path = served.serve request path := by
  have hrange := request.plainValue?_withoutCookies "range" (by decide)
  have hunmodified := request.plainValue?_withoutCookies "if-unmodified-since" (by decide)
  have hmodified := request.plainValue?_withoutCookies "if-modified-since" (by decide)
  have hfile (file : StaticFile) :
      served.serveFile request.withoutCookies file = served.serveFile request file := by
    simp only [serveFile, dateOf?, sendFile, hrange, hunmodified, hmodified]
    rfl
  simp only [serve, hfile]
  rfl

def Handler.IgnoresCookies (handler : Handler σ) : Prop :=
  ∀ request, handler request.withoutCookies = handler request

theorem Handler.IgnoresCookies.eq {handler : Handler σ} (h : handler.IgnoresCookies)
    (hrest : request.withoutCookies = other.withoutCookies) : handler request = handler other := by
  rw [← h request, hrest, h other]

/-- Methods of which every handler has a property. -/
inductive Methods.All {α : Type} (p : α → Prop) : Methods α → Prop
  | get {handler : α} (h : p handler) : All p (.get handler)
  | getPost {handler post : α} (h : p handler) (hpost : p post) : All p (.getPost handler post)
  | any {handler : α} (h : p handler) : All p (.any handler)

namespace Methods.All

variable {α γ : Type} {p : α → Prop} {methods : Methods α}

theorem map {q : γ → Prop} {f : α → γ} (hf : ∀ {handler}, p handler → q (f handler))
    (h : methods.All p) : (methods.map f).All q := by
  cases h with
  | get h => exact .get (hf h)
  | getPost h hpost => exact .getPost (hf h) (hf hpost)
  | any h => exact .any (hf h)

theorem of_select (h : methods.All p) {method : String} {handler : α}
    (hselect : methods.select method = some handler) : p handler := by
  cases h with
  | get h =>
    obtain ⟨-, hsame⟩ := Option.ite_none_right_eq_some.1 hselect
    exact Option.some.inj hsame ▸ h
  | getPost h hpost =>
    rw [Methods.select] at hselect
    split at hselect
    · exact Option.some.inj hselect ▸ h
    · obtain ⟨-, hsame⟩ := Option.ite_none_right_eq_some.1 hselect
      exact Option.some.inj hsame ▸ hpost
  | any h => exact Option.some.inj hselect ▸ h

theorem handle {methods : Methods (Handler σ)} (h : methods.All Handler.IgnoresCookies) :
    methods.handle.IgnoresCookies := by
  intro request
  have hmethod : request.withoutCookies.method = request.method := rfl
  rw [Methods.handle, Methods.handle, hmethod]
  cases hselect : methods.select request.method with
  | none => rfl
  | some handler => exact h.of_select hselect request

end Methods.All

/-- An endpoint whose handlers do not look at the cookies, for whomever the gate lets through. -/
inductive Endpoint.IgnoresCookies : Endpoint β → Prop
  | free {methods : Methods (Handler (Visit β))} (h : methods.All Handler.IgnoresCookies) :
      IgnoresCookies (.free methods)
  | gated {methods : Methods (Principal → Handler (Visit β))} (gate : SessionGate)
      (h : methods.All fun handler => ∀ principal, (handler principal).IgnoresCookies) :
      IgnoresCookies (.gated gate methods)

theorem Endpoint.IgnoresCookies.handle {endpoint : Endpoint β} (h : endpoint.IgnoresCookies) :
    endpoint.handle.IgnoresCookies := by
  cases h with
  | free h => exact h.handle
  | gated gate h =>
    intro request
    refine congrArg (Visit.session >>= ·) (funext fun session => ?_)
    cases gate.check session with
    | ok principal => exact (h.map fun hhandler => hhandler principal).handle request
    | error route => rfl

theorem Endpoint.nameIn_of_withoutCookies (endpoint : Endpoint β)
    (h : request.withoutCookies = other.withoutCookies) :
    endpoint.nameIn request = endpoint.nameIn other := by
  cases endpoint with
  | free methods => exact methods.nameIn_of_withoutCookies h
  | gated gate methods => exact methods.nameIn_of_withoutCookies h

namespace SessionLayer

variable {layer : SessionLayer σ}

theorem start_of_token? {token : SessionToken} (h : layer.cookie.token? request = some token) :
    layer.start request = layer.load token := by
  rw [start, h]

theorem serve_of_withoutCookies {handler : Handler (Visit β)} (h : handler.IgnoresCookies)
    (hrest : request.withoutCookies = other.withoutCookies)
    (htoken : layer.cookie.token? request = layer.cookie.token? other) (fresh : SessionToken)
    (server : Server σ β) :
    layer.serve handler request fresh server = layer.serve handler other fresh server := by
  have hstart : layer.start request = layer.start other := by rw [start, start, htoken]
  have hfinish (stored : Option StoredSession) (server : Server σ β) :
      layer.finish handler request fresh stored server =
        layer.finish handler other fresh stored server := by
    rw [finish, finish, Handler.run, Handler.run, h.eq hrest]
  simp only [serve, hstart, hfinish]

end SessionLayer

end Gatehouse
