set_option autoImplicit false

/-!
# To-do items
-/

namespace Gatehouse

structure TodoItem where
  id : UInt64
  title : String
  time : String
  content : String
  completed : Bool := false
  deriving DecidableEq, Repr

/-- An item as submitted, before the list gives it an id. -/
structure NewTodo where
  title : String
  time : String
  content : String
  deriving DecidableEq, Repr

def NewTodo.toItem (todo : NewTodo) (id : UInt64) : TodoItem :=
  ⟨id, todo.title, todo.time, todo.content, false⟩

end Gatehouse
