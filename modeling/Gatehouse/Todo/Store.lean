import Gatehouse.Attempt
import Gatehouse.Todo.Basic

set_option autoImplicit false

/-!
# To-do stores
-/

namespace Gatehouse

inductive TodoError where
  | unavailable (reason : String)
  | notPersisted (reason : String)
  | unexpected (reason : String)
  deriving DecidableEq, Repr

def TodoError.message : TodoError → String
  | .unavailable reason => s!"To-do list unavailable: {reason}"
  | .notPersisted reason => s!"Failed to persist to-do list: {reason}"
  | .unexpected reason => s!"Unexpected error {reason}"

structure AddTodoError where
  cause : TodoError
  deriving DecidableEq, Repr

def AddTodoError.message (error : AddTodoError) : String :=
  s!"To-do store error: {error.cause.message}"

structure TodoStore (σ : Type) where
  list : Attempt TodoError σ (List TodoItem)
  append : NewTodo → Attempt TodoError σ TodoItem

namespace TodoStore

variable {σ τ : Type}

def add (store : TodoStore σ) (todo : NewTodo) : Attempt AddTodoError σ TodoItem :=
  (store.append todo).mapError AddTodoError.mk

def onPart (part : τ → σ) (withPart : σ → τ → τ) (store : TodoStore σ) : TodoStore τ where
  list := store.list.onPart part withPart
  append todo := (store.append todo).onPart part withPart

/-- A store that fails in one way, whatever is asked of it. -/
def failing (error : TodoError) : TodoStore σ where
  list := throw error
  append _ := throw error

end TodoStore

end Gatehouse
