import Gatehouse.Session.Basic
import Gatehouse.Todo.Basic

set_option autoImplicit false

/-!
# Routes, views and pages

A handler ends in a page: a view to be rendered, or a redirect to a named route.
-/

namespace Gatehouse

inductive Route where
  | home
  | login
  | register
  | logout
  | profile
  | success
  | newTodo
  deriving DecidableEq, Repr

def Route.path : Route → String
  | .home => "/"
  | .login => "/login"
  | .register => "/register"
  | .logout => "/logout"
  | .profile => "/profile"
  | .success => "/success"
  | .newTodo => "/new"

/-- The size of a game: its rows and columns, and how many mines it hides. -/
structure Board where
  rows : UInt32
  cols : UInt32
  mines : UInt32
  deriving DecidableEq, Repr

inductive View where
  | game (board : Board) (score : Int64)
  | profile (username : Username) (score : Int64)
  | login (error : Option String) (flashes : List Flash)
  | register (error : Option String) (flashes : List Flash)
  | welcome (flashes : List Flash)
  | success (flashes : List Flash)
  | todoList (todos : List TodoItem)
  | newTodo
  deriving DecidableEq

def View.name : View → String
  | .game .. => "game"
  | .profile .. => "profile"
  | .login .. => "login"
  | .register .. => "register"
  | .welcome .. => "welcome"
  | .success .. => "success"
  | .todoList .. => "todo_list"
  | .newTodo => "new_todo"

inductive Page where
  | render (view : View)
  | redirect (route : Route)
  deriving DecidableEq

end Gatehouse
