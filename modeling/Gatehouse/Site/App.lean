import Gatehouse.Http.SessionLayer
import Gatehouse.Http.StaticFiles
import Gatehouse.Site.GameScript
import Gatehouse.Site.Minesweeper
import Gatehouse.Site.StyleSheet
import Gatehouse.Site.TodoList
import Gatehouse.Site.UserSystem

set_option autoImplicit false

/-!
# Applications

An application answers every request: with a static file, with a page outside the sessions, or,
where it keeps sessions, through its session layer, behind which also unknown paths are refused.
-/

namespace Gatehouse

def assets : StaticFiles where
  mount := "/static"
  directory := "assets"
  modified := ⟨3, 2026, 1, 1, 0, 0, 0⟩
  files :=
    [⟨["css", "style.css"], "text/css", styleSheet⟩,
      ⟨["js", "minesweeper.js"], "text/javascript", gameScript⟩]

structure App (σ β : Type) where
  sessions : Option (SessionLayer σ) := none
  /-- What is served behind the session layer, by path. -/
  endpoints : List (String × Endpoint β) := []
  /-- What is served without sessions, by path. -/
  openPaths : List (String × Methods (Handler β)) := []

namespace App

variable {σ β : Type}

def unknownPath {τ : Type} : Handler τ := fun _ => pure .notFound

def serveInside (app : App σ β) (layer : SessionLayer σ) (request : Request)
    (fresh : SessionToken) (server : Server σ β) : Response × Server σ β :=
  match app.endpoints.lookup request.path with
  | some endpoint =>
    let (response, after) := layer.serve endpoint.handle request fresh server
    (endpoint.nameIn request response, after)
  | none => layer.serve unknownPath request fresh server

def servePath (app : App σ β) (request : Request) (fresh : SessionToken) (server : Server σ β) :
    Response × Server σ β :=
  match app.openPaths.lookup request.path with
  | some methods =>
    let (response, backing) := methods.handle.run request server.backing
    (methods.nameIn request response, { server with backing })
  | none =>
    match app.sessions with
    | some layer => app.serveInside layer request fresh server
    | none => (.notFound, server)

/-- Answers a request. The fresh token is there for a session that begins or moves. -/
def serve (app : App σ β) (request : Request) (fresh : SessionToken) (server : Server σ β) :
    Response × Server σ β :=
  match assets.below? request.path with
  | some path => (assets.serve request path, server)
  | none =>
    let (response, after) := app.servePath request fresh server
    (if request.dropsBody response.status then { response with body := "" } else response, after)

def minesweeper (layer : SessionLayer σ) (credentials : CredentialStore β) (renderer : Renderer)
    (board : Board) : App σ β where
  sessions := some layer
  endpoints := (Minesweeper.withCredentials credentials renderer board).endpoints

def userSystem (layer : SessionLayer σ) (credentials : CredentialStore β) (renderer : Renderer) :
    App σ β where
  sessions := some layer
  endpoints := (UserSystem.withCredentials credentials renderer).endpoints

def todoList (todos : TodoStore β) (renderer : Renderer) : App σ β where
  openPaths := (TodoList.mk todos renderer).endpoints

end App

end Gatehouse
