import Gatehouse.Credentials.Store
import Gatehouse.Html.Renderer
import Gatehouse.Http.Response
import Gatehouse.Session.Store
import Gatehouse.Todo.Store

set_option autoImplicit false

/-!
# Failures of a request

Whatever fails behind a handler ends in the same page; its text stays in the server.
-/

namespace Gatehouse

inductive AppError where
  | credentialStore (error : CredentialError)
  | todoStore (error : TodoError)
  | sessionStore (error : SessionStoreError)
  | render (error : RenderError)
  | missingSession
  deriving DecidableEq, Repr

namespace AppError

def message : AppError → String
  | .credentialStore error => s!"Credential store failure: {error.message}"
  | .todoStore error => s!"To-do store failure: {error.message}"
  | .sessionStore error => s!"Session store failure: {error.message}"
  | .render error => error.message
  | .missingSession => "Session layer is not installed on this route"

def ofAddTodo (error : AddTodoError) : AppError := .todoStore error.cause

def toResponse (_ : AppError) : Response := .serverError

end AppError

def Page.respond (renderer : Renderer) : Page → Except AppError Response
  | .render view =>
    match renderer.render view with
    | .ok html => .ok (.html 200 html)
    | .error error => .error (.render error)
  | .redirect route => .ok (.seeOther route.path)

end Gatehouse
