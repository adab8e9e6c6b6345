import Gatehouse.Http.Error
import Gatehouse.Http.Form
import Gatehouse.Session.Gate
import Gatehouse.Session.Handle

set_option autoImplicit false

/-!
# Handlers

What runs for a request: steps on the visitor's session and on what the application keeps, which end
in a response or in a failure of the server. A path admits some methods, and may stand behind a
gate.
-/

namespace Gatehouse

abbrev Handler (σ : Type) := Request → Attempt AppError σ Response

inductive Methods (α : Type) where
  /-- GET, and HEAD as GET without the body. -/
  | get (handler : α)
  /-- The same, and POST. -/
  | getPost (handler post : α)
  | any (handler : α)

namespace Methods

variable {α β : Type}

def select : Methods α → String → Option α
  | get handler, method => if method = "GET" ∨ method = "HEAD" then some handler else none
  | getPost handler post, method =>
    if method = "GET" ∨ method = "HEAD" then some handler
    else if method = "POST" then some post
    else none
  | any handler, _ => some handler

def allow : Methods α → Option String
  | get _ => some "GET,HEAD"
  | getPost .. => some "GET,HEAD,POST"
  | any _ => none

def map (f : α → β) : Methods α → Methods β
  | get handler => get (f handler)
  | getPost handler post => getPost (f handler) (f post)
  | any handler => any (f handler)

@[simp] theorem select_map (f : α → β) (methods : Methods α) (method : String) :
    (methods.map f).select method = (methods.select method).map f := by
  cases methods <;> simp only [map, select] <;> repeat' split
  all_goals rfl

/-- Names the methods in the answer to a request with another one, whatever the answer is. -/
def nameIn (methods : Methods α) (request : Request) (response : Response) : Response :=
  match methods.select request.method with
  | some _ => response
  | none => { response with allow := methods.allow }

def handle {σ : Type} (methods : Methods (Handler σ)) : Handler σ := fun request =>
  match methods.select request.method with
  | some handler => handler request
  | none => pure .notAllowed

end Methods

structure Visit (β : Type) where
  handle : SessionHandle
  backing : β
  deriving DecidableEq, Repr

namespace Visit

variable {ε β α : Type}

def session : Attempt ε (Visit β) Session := do
  pure (← get).handle.session

def update (f : Session → Session) : Attempt ε (Visit β) Unit :=
  modify fun visit => { visit with handle := visit.handle.update f }

def commit (session : Session) : Attempt ε (Visit β) Unit :=
  modify fun visit => { visit with handle := visit.handle.commit session }

def takeFlashes : Attempt ε (Visit β) (List Flash) :=
  .ofFunction fun visit =>
    (.ok visit.handle.takeFlashes.1, { visit with handle := visit.handle.takeFlashes.2 })

def inBacking (attempt : Attempt ε β α) : Attempt ε (Visit β) α :=
  attempt.onPart backing fun backing visit => { visit with backing }

end Visit

/-- What a path serves, behind a gate or not. A gate stands also before requests whose method is
refused. -/
inductive Endpoint (β : Type) where
  | free (methods : Methods (Handler (Visit β)))
  | gated (gate : SessionGate) (methods : Methods (Principal → Handler (Visit β)))

namespace Endpoint

variable {β : Type}

def handle : Endpoint β → Handler (Visit β)
  | free methods => methods.handle
  | gated gate methods => fun request => do
    match gate.check (← Visit.session) with
    | .ok principal => (methods.map fun handler => handler principal).handle request
    | .error route => pure (.seeOther route.path)

def nameIn : Endpoint β → Request → Response → Response
  | free methods => methods.nameIn
  | gated _ methods => methods.nameIn

end Endpoint

def AppError.settle : Except AppError Response → Response
  | .ok response => response
  | .error error => error.toResponse

/-- Runs a handler; its failures become responses, and what it has changed stays changed. -/
def Handler.run {σ : Type} (handler : Handler σ) (request : Request) (state : σ) :
    Response × σ :=
  let outcome := (handler request).runFrom state
  (AppError.settle outcome.1, outcome.2)

def Page.send {σ : Type} (renderer : Renderer) (page : Page) : Attempt AppError σ Response :=
  match page.respond renderer with
  | .ok response => pure response
  | .error error => throw error

end Gatehouse
