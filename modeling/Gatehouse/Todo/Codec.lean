import Gatehouse.Json.Parser
import Gatehouse.Json.Printer
import Gatehouse.Json.Record
import Gatehouse.Todo.Basic

set_option autoImplicit false

/-!
# To-do items as JSON

The list is kept as an array of items in order. An item without `completed` is still to be done.
-/

namespace Gatehouse

namespace TodoItem

def toJson (item : TodoItem) : Json :=
  .ofFields
    [("id", .natural item.id.toNat), ("title", .ofText item.title), ("time", .ofText item.time),
      ("content", .ofText item.content), ("completed", .bool item.completed)]

def ofJson? (json : Json) : Option TodoItem := do
  let field ← json.record? ["id", "title", "time", "content", "completed"] 4
  let id ← (← field "id").word?
  let title ← (← field "title").text?
  let time ← (← field "time").text?
  let content ← (← field "content").text?
  let completed ← (field "completed").elim (some false) Json.bool?
  pure ⟨id, title, time, content, completed⟩

def listToJson (items : List TodoItem) : Json :=
  .array (items.map toJson)

def listOfJson? (json : Json) : Option (List TodoItem) :=
  json.list? ofJson?

def listOfBytes? (bytes : List UInt8) : Option (List TodoItem) :=
  (Json.parse? bytes).bind listOfJson?

end TodoItem

namespace NewTodo

def ofJson? (json : Json) : Option NewTodo := do
  let field ← json.record? ["title", "time", "content"] 3
  let title ← (← field "title").text?
  let time ← (← field "time").text?
  let content ← (← field "content").text?
  pure ⟨title, time, content⟩

end NewTodo

end Gatehouse
