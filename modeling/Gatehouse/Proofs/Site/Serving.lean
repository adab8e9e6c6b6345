import Gatehouse.Proofs.Site.AccountService

set_option autoImplicit false

/-!
# Serving the sites with accounts

What a whole site answers, static files included, in terms of its session layer and its gate.
-/

namespace Gatehouse

namespace SessionLayer

variable {σ β : Type} {layer : SessionLayer σ} {request : Request} {fresh : SessionToken}
  {server : Server σ β} {handler other : Handler (Visit β)} {stored : Option StoredSession}
  {loaded : σ}

theorem serve_congr (hstart : (layer.start request).runFrom server.sessions = (.ok stored, loaded))
    (h : handler.run request ⟨.new (given stored), server.backing⟩ =
      other.run request ⟨.new (given stored), server.backing⟩) :
    layer.serve handler request fresh server = layer.serve other request fresh server := by
  simp only [serve, hstart, finish, h]

theorem serve_of_run {response : Response} {visit : Visit β}
    (hstart : (layer.start request).runFrom server.sessions = (.ok stored, loaded))
    (hrun : handler.run request ⟨.new (given stored), server.backing⟩ = (response, visit)) :
    layer.serve handler request fresh server =
      let written := (layer.writeBack stored fresh visit.handle).runFrom loaded
      (layer.settle response written.1, ⟨written.2, visit.backing⟩) := by
  simp only [serve, hstart, finish, hrun]

theorem serve_of_idle {response : Response}
    (hstart : (layer.start request).runFrom server.sessions = (.ok stored, loaded))
    (hrun : handler.run request ⟨.new (given stored), server.backing⟩ =
      (response, ⟨.new (given stored), server.backing⟩)) :
    layer.serve handler request fresh server = (response, ⟨loaded, server.backing⟩) := by
  have hkept : layer.writeBack stored fresh (.new (given stored)) = pure .none := rfl
  rw [serve_of_run hstart hrun]
  simp only [hkept, Attempt.runFrom_pure, settle, cookieHeaders, List.append_nil]

end SessionLayer

theorem Route.below?_path (route : Route) : assets.below? route.path = none := by
  cases route <;> decide

namespace AccountSite

def gatedRoutes : AccountSite → List Route
  | minesweeper _ => [.home, .profile, .logout]
  | userSystem => [.success]

end AccountSite

namespace AccountService

variable {σ β : Type} (service : AccountService σ β)

def gated? (request : Request) : Option (Principal → Handler (Visit β)) :=
  match service.endpoints.lookup request.path with
  | some (.gated _ methods) => methods.select request.method
  | _ => none

/-- Whom the gate lets in with a request. -/
def admitted? (request : Request) (sessions : σ) : Option Principal :=
  match (service.layer.start request).runFrom sessions with
  | (.ok stored, _) => (SessionGate.check {} (SessionLayer.given stored)).toOption
  | (.error _, _) => none

variable {service} {request : Request} {fresh : SessionToken} {server : Server σ β}

theorem serve_static {path : String} (hpath : assets.below? request.path = some path) :
    service.app.serve request fresh server = (assets.serve request path, server) := by
  rw [App.serve, hpath]

/-- A site adds to the answer of its session layer at most which methods a path admits. -/
theorem serve_eq (service : AccountService σ β) (fresh : SessionToken) (server : Server σ β)
    (hpath : assets.below? request.path = none)
    (hbody : ∀ status, request.dropsBody status = false) :
    ∃ allow, service.app.serve request fresh server =
      ({ (service.layer.serve (service.handler request) request fresh server).1 with allow },
        (service.layer.serve (service.handler request) request fresh server).2) := by
  rw [App.serve, hpath]
  simp only [App.servePath, App.serveInside, app_openPaths, app_sessions, app_endpoints,
    List.lookup_nil, hbody, handler]
  cases service.endpoints.lookup request.path with
  | none => exact ⟨_, rfl⟩
  | some endpoint =>
    rcases endpoint with methods | ⟨gate, methods⟩ <;>
      simp only [Endpoint.nameIn, Methods.nameIn] <;>
      cases methods.select request.method <;> exact ⟨_, rfl⟩

theorem dropsBody_of_get (hget : request.method = "GET") (status : Nat) :
    request.dropsBody status = false := by
  simp [Request.dropsBody, Request.isHead, hget]

theorem dropsBody_of_post (hpost : request.method = "POST") (status : Nat) :
    request.dropsBody status = false := by
  simp [Request.dropsBody, Request.isHead, hpost]

theorem serve_admitted (hpath : assets.below? request.path = none)
    (hbody : ∀ status, request.dropsBody status = false)
    (hnamed : ∀ endpoint response, service.endpoints.lookup request.path = some endpoint →
      endpoint.nameIn request response = response) :
    service.app.serve request fresh server =
      service.layer.serve (service.handler request) request fresh server := by
  rw [App.serve, hpath]
  simp only [App.servePath, App.serveInside, app_openPaths, app_sessions, app_endpoints,
    List.lookup_nil, hbody, handler]
  cases hlookup : service.endpoints.lookup request.path with
  | none => rfl
  | some endpoint => simp [hnamed endpoint _ hlookup]

theorem serve_get (hget : request.method = "GET") (hpath : assets.below? request.path = none) :
    service.app.serve request fresh server =
      service.layer.serve (service.handler request) request fresh server := by
  have hnamed : ∀ {α : Type} (methods : Methods α) (response : Response),
      methods.nameIn request response = response := by
    intro α methods response
    rw [Methods.nameIn, hget]
    cases hselect : methods.select "GET" with
    | some handler => rfl
    | none => exact absurd hselect methods.select_get_ne_none
  refine serve_admitted hpath (dropsBody_of_get hget) fun endpoint response _ => ?_
  cases endpoint with
  | free methods => exact hnamed methods response
  | gated gate methods => exact hnamed methods response

theorem serve_post (hpost : request.method = "POST") {route : Route}
    (hroute : route = .login ∨ route = .register) (hpath : request.path = route.path) :
    service.app.serve request fresh server =
      service.layer.serve (service.handler request) request fresh server := by
  refine serve_admitted (hpath ▸ route.below?_path) (dropsBody_of_post hpost)
    fun endpoint response hlookup => ?_
  obtain ⟨site, layer, credentials, renderer⟩ := service
  rw [hpath] at hlookup
  cases site <;> rcases hroute with rfl | rfl <;> cases hlookup <;>
    simp [Endpoint.nameIn, Methods.nameIn, Methods.select, hpost]

theorem lookup_gatedRoutes {route : Route} (hroute : route ∈ service.site.gatedRoutes)
    (hpath : request.path = route.path) :
    ∃ handler, service.endpoints.lookup request.path = some (.gated {} (.get handler)) := by
  obtain ⟨site, layer, credentials, renderer⟩ := service
  rw [hpath]
  cases site with
  | minesweeper board =>
    simp only [AccountSite.gatedRoutes, List.mem_cons, List.not_mem_nil, or_false] at hroute
    rcases hroute with rfl | rfl | rfl <;> exact ⟨_, rfl⟩
  | userSystem =>
    rw [AccountSite.gatedRoutes, List.mem_singleton] at hroute
    rw [hroute]
    exact ⟨_, rfl⟩

theorem lookup_gated {route : Route} (hget : request.method = "GET")
    (hroute : route ∈ service.site.gatedRoutes) (hpath : request.path = route.path) :
    ∃ methods handler, service.endpoints.lookup request.path = some (.gated {} methods) ∧
      methods.select request.method = some handler := by
  obtain ⟨handler, hlookup⟩ := lookup_gatedRoutes hroute hpath
  exact ⟨.get handler, handler, hlookup, by simp [Methods.select, hget]⟩

/-- The handler behind the gate runs for whom the gate lets in. Everybody else is sent to sign in,
and nothing has changed. -/
theorem serve_gated {stored : Option StoredSession} {loaded : σ} (hget : request.method = "GET")
    {route : Route} (hroute : route ∈ service.site.gatedRoutes) (hpath : request.path = route.path)
    (hstart : (service.layer.start request).runFrom server.sessions = (.ok stored, loaded)) :
    ∃ handler, service.gated? request = some handler ∧
      service.app.serve request fresh server =
        match service.admitted? request server.sessions with
        | some principal => service.layer.serve (handler principal) request fresh server
        | none => (.seeOther Route.login.path, ⟨loaded, server.backing⟩) := by
  obtain ⟨methods, handler, hlookup, hselect⟩ := lookup_gated hget hroute hpath
  refine ⟨handler, by simp only [gated?, hlookup, hselect], ?_⟩
  have hrun := Endpoint.run_gated {} methods request
    ⟨.new (SessionLayer.given stored), server.backing⟩
  simp only [hselect, SessionHandle.new] at hrun
  rw [serve_get hget (hpath ▸ route.below?_path)]
  simp only [AccountService.handler, hlookup, admitted?, hstart]
  cases hcheck : SessionGate.check {} (SessionLayer.given stored) with
  | ok principal =>
    rw [hcheck] at hrun
    exact SessionLayer.serve_congr hstart hrun
  | error route =>
    rw [hcheck, SessionGate.route_of_check hcheck] at hrun
    exact SessionLayer.serve_of_idle hstart hrun

end AccountService

end Gatehouse
