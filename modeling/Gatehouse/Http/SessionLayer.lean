import Gatehouse.Http.Cookie
import Gatehouse.Http.Handler
import Gatehouse.Session.Store

set_option autoImplicit false

/-!
# The session layer

Before a handler runs, the session of the presented token is loaded; afterwards it is written back
if it has changed. A visitor without a session begins a new one, which gets a fresh token when it is
first written. An emptied session is removed. A session that becomes authenticated moves to a fresh
token.
-/

namespace Gatehouse

abbrev StoredSession := SessionToken × Session

inductive CookieChange where
  | none
  | issue (token : SessionToken)
  | expire
  deriving DecidableEq

structure SessionLayer (σ : Type) where
  store : SessionStore σ
  cookie : SessionCookie

/-- The sessions of a server, and what its application keeps. -/
structure Server (σ β : Type) where
  sessions : σ
  backing : β
  deriving DecidableEq, Repr

namespace SessionLayer

variable {σ β : Type}

def load (layer : SessionLayer σ) (token : SessionToken) :
    Attempt SessionStoreError σ (Option StoredSession) := do
  match ← (layer.store.load token).outcome with
  | .ok session => pure (session.map fun session => (token, session))
  | .error (.corrupt _) =>
    layer.store.remove token
    pure none
  | .error error => throw error

def start (layer : SessionLayer σ) (request : Request) :
    Attempt SessionStoreError σ (Option StoredSession) :=
  match layer.cookie.token? request with
  | some token => layer.load token
  | none => pure none

def given (stored : Option StoredSession) : Session :=
  (stored.map Prod.snd).getD .new

def saveNew (layer : SessionLayer σ) (fresh : SessionToken) (session : Session) :
    Attempt SessionStoreError σ CookieChange :=
  if session.isEmpty then pure .none
  else do
    layer.store.save fresh session
    pure (.issue fresh)

def saveChanged (layer : SessionLayer σ) (stored : StoredSession) (fresh : SessionToken)
    (session : Session) : Attempt SessionStoreError σ CookieChange :=
  if session.isEmpty then do
    layer.store.remove stored.1
    pure .expire
  else if !stored.2.isAuthenticated && session.isAuthenticated then do
    layer.store.remove stored.1
    layer.store.save fresh session
    pure (.issue fresh)
  else do
    layer.store.save stored.1 session
    pure .none

def writeBack (layer : SessionLayer σ) (stored : Option StoredSession) (fresh : SessionToken)
    (handle : SessionHandle) : Attempt SessionStoreError σ CookieChange :=
  match handle.changed?, stored with
  | none, _ => pure .none
  | some session, none => layer.saveNew fresh session
  | some session, some stored => layer.saveChanged stored fresh session

def cookieHeaders (layer : SessionLayer σ) : CookieChange → List String
  | .none => []
  | .issue token => [layer.cookie.issue token]
  | .expire => [layer.cookie.expire]

def settle (layer : SessionLayer σ) (response : Response) :
    Except SessionStoreError CookieChange → Response
  | .ok change => { response with setCookies := response.setCookies ++ layer.cookieHeaders change }
  | .error error => (AppError.sessionStore error).toResponse

/-- The second half of a request: the handler runs on the session that was loaded. -/
def finish (layer : SessionLayer σ) (handler : Handler (Visit β)) (request : Request)
    (fresh : SessionToken) (stored : Option StoredSession) (server : Server σ β) :
    Response × Server σ β :=
  let (response, visit) := handler.run request ⟨.new (given stored), server.backing⟩
  let (change, sessions) := (layer.writeBack stored fresh visit.handle).runFrom server.sessions
  (layer.settle response change, ⟨sessions, visit.backing⟩)

def serve (layer : SessionLayer σ) (handler : Handler (Visit β)) (request : Request)
    (fresh : SessionToken) (server : Server σ β) : Response × Server σ β :=
  match (layer.start request).runFrom server.sessions with
  | (.ok stored, sessions) => layer.finish handler request fresh stored { server with sessions }
  | (.error error, sessions) =>
    ((AppError.sessionStore error).toResponse, { server with sessions })

end SessionLayer

end Gatehouse
