import Gatehouse.Http.Handler

set_option autoImplicit false

/-!
# The to-do list

A site without accounts and without sessions.
-/

namespace Gatehouse

structure TodoList (β : Type) where
  todos : TodoStore β
  renderer : Renderer

def NewTodo.ofRequest (request : Request) : Except FormError NewTodo := do
  let fields ← Form.ofRequest ["title", "time", "content"] request
  pure ⟨← fields.value "title", ← fields.value "time", ← fields.value "content"⟩

namespace TodoList

variable {β : Type}

def list (site : TodoList β) : Handler β := fun _ => do
  let todos ← site.todos.list.mapError .todoStore
  (Page.render (.todoList todos)).send site.renderer

def newForm (site : TodoList β) : Handler β := fun _ =>
  (Page.render .newTodo).send site.renderer

def add (site : TodoList β) : Handler β := fun request =>
  match NewTodo.ofRequest request with
  | .error error => pure error.toResponse
  | .ok todo => do
    let _ ← (site.todos.add todo).mapError AppError.ofAddTodo
    (Page.redirect .home).send site.renderer

def endpoints (site : TodoList β) : List (String × Methods (Handler β)) :=
  [(Route.home.path, .get site.list), (Route.newTodo.path, .getPost site.newForm site.add)]

end TodoList

end Gatehouse
