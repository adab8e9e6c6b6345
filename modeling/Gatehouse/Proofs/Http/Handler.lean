import Gatehouse.Http.Handler
import Gatehouse.Proofs.Attempt

set_option autoImplicit false

/-!
# Steps of handlers

What each step of a handler gives and what it leaves.
-/

namespace Gatehouse

namespace Visit

variable {ε α β : Type}

@[simp] theorem runFrom_session (visit : Visit β) :
    (session : Attempt ε (Visit β) Session).runFrom visit = (.ok visit.handle.session, visit) := rfl

@[simp] theorem runFrom_update (f : Session → Session) (visit : Visit β) :
    (update f : Attempt ε (Visit β) Unit).runFrom visit =
      (.ok (), { visit with handle := visit.handle.update f }) := rfl

@[simp] theorem runFrom_commit (session : Session) (visit : Visit β) :
    (commit session : Attempt ε (Visit β) Unit).runFrom visit =
      (.ok (), { visit with handle := visit.handle.commit session }) := rfl

@[simp] theorem runFrom_takeFlashes (visit : Visit β) :
    (takeFlashes : Attempt ε (Visit β) (List Flash)).runFrom visit =
      (.ok visit.handle.takeFlashes.1, { visit with handle := visit.handle.takeFlashes.2 }) := rfl

@[simp] theorem runFrom_inBacking (attempt : Attempt ε β α) (visit : Visit β) :
    (inBacking attempt).runFrom visit =
      ((attempt.runFrom visit.backing).1,
        { visit with backing := (attempt.runFrom visit.backing).2 }) := rfl

end Visit

namespace Page

variable {σ : Type}

@[simp] theorem runFrom_send (renderer : Renderer) (page : Page) (state : σ) :
    (page.send renderer : Attempt AppError σ Response).runFrom state =
      (page.respond renderer, state) := by
  rw [send]
  cases page.respond renderer <;> rfl

def answer (renderer : Renderer) (page : Page) : Response :=
  AppError.settle (page.respond renderer)

theorem answer_of_renders {renderer : Renderer} {view : View} {html : String}
    (h : renderer.render view = .ok html) :
    (Page.render view).answer renderer = .html 200 html := by
  rw [answer, respond, h]
  rfl

theorem answer_render (renderer : Renderer) (view : View) :
    (∃ body, (Page.render view).answer renderer = .html 200 body) ∨
      (Page.render view).answer renderer = .serverError := by
  rw [answer, respond]
  cases renderer.render view with
  | ok html => exact .inl ⟨html, rfl⟩
  | error error => exact .inr rfl

theorem location_answer_render (renderer : Renderer) (view : View) :
    ((Page.render view).answer renderer).location = none := by
  rcases answer_render renderer view with ⟨body, h⟩ | h <;> rw [h] <;> rfl

@[simp] theorem setCookies_answer (renderer : Renderer) (page : Page) :
    (page.answer renderer).setCookies = [] := by
  cases page with
  | render view => rcases answer_render renderer view with ⟨body, h⟩ | h <;> rw [h] <;> rfl
  | redirect route => rfl

end Page

namespace Methods

variable {α : Type} {handler post selected : α} {method : String}

theorem eq_of_select_get (h : (get handler).select method = some selected) :
    (method = "GET" ∨ method = "HEAD") ∧ selected = handler := by
  simp only [select] at h
  split at h
  · next hmethod => exact ⟨hmethod, (Option.some.inj h).symm⟩
  · cases h

theorem eq_of_select_getPost (h : (getPost handler post).select method = some selected) :
    selected = handler ∨ method = "POST" ∧ selected = post := by
  simp only [select] at h
  split at h
  · exact .inl (Option.some.inj h).symm
  · split at h
    · next hmethod => exact .inr ⟨hmethod, (Option.some.inj h).symm⟩
    · cases h

theorem select_get_ne_none (methods : Methods α) : methods.select "GET" ≠ none := by
  cases methods <;> simp [select]

end Methods

namespace Endpoint

variable {β : Type}

theorem run_free (methods : Methods (Handler (Visit β))) (request : Request) (visit : Visit β) :
    (Endpoint.free methods).handle.run request visit =
      match methods.select request.method with
      | some handler => handler.run request visit
      | none => (.notAllowed, visit) := by
  simp only [Handler.run, handle, Methods.handle]
  cases methods.select request.method <;> rfl

theorem run_gated (gate : SessionGate) (methods : Methods (Principal → Handler (Visit β)))
    (request : Request) (visit : Visit β) :
    (Endpoint.gated gate methods).handle.run request visit =
      match gate.check visit.handle.session with
      | .ok principal =>
        match methods.select request.method with
        | some handler => (handler principal).run request visit
        | none => (.notAllowed, visit)
      | .error route => (.seeOther route.path, visit) := by
  simp only [Handler.run, handle, Attempt.runFrom_bind, Visit.runFrom_session]
  cases gate.check visit.handle.session with
  | error route => rfl
  | ok principal =>
    simp only [Methods.handle, Methods.select_map]
    cases methods.select request.method <;> rfl

end Endpoint

/-- The response sends the client to a path. -/
def Response.SendsTo (response : Response) (path : String) : Prop :=
  response.status = 303 ∧ response.location = some path

theorem FormError.location_toResponse (error : FormError) : error.toResponse.location = none := by
  cases error <;> rfl

theorem FormError.setCookies_toResponse (error : FormError) : error.toResponse.setCookies = [] := by
  cases error <;> rfl

end Gatehouse
