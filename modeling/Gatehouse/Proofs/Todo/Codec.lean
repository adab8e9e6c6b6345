import Gatehouse.Proofs.Json.Pretty
import Gatehouse.Proofs.Json.Record
import Gatehouse.Todo.Codec

set_option autoImplicit false

/-!
# To-do lists in files

A list that is written is read back as it was.
-/

namespace Gatehouse.TodoItem

open Json

theorem ofJson?_toJson (item : TodoItem) : ofJson? item.toJson = some item := by
  obtain ⟨id, title, time, content, completed⟩ := item
  have hid := word?_natural id
  simp [ofJson?, toJson, ofFields, ofText, record?, valuesOf, text?, bool?, hid]

theorem listOfJson?_listToJson (items : List TodoItem) :
    listOfJson? (listToJson items) = some items := by
  rw [listOfJson?, listToJson, list?]
  induction items with
  | nil => rfl
  | cons item items ih => simp [List.mapM_cons, ofJson?_toJson, ih]

theorem writable_toJson (item : TodoItem) : Writable item.toJson := by
  refine .object ?_ ?_
  · intro member hmember
    obtain ⟨field, -, rfl⟩ := List.mem_map.1 hmember
    rfl
  · intro member hmember
    simp only [List.map_cons, List.map_nil, List.mem_cons, List.not_mem_nil, or_false] at hmember
    rcases hmember with rfl | rfl | rfl | rfl | rfl
    · exact .natural _
    · exact .text _
    · exact .text _
    · exact .text _
    · exact .bool _

theorem writable_listToJson (items : List TodoItem) : Writable (listToJson items) := by
  refine .array fun value hvalue => ?_
  obtain ⟨item, -, rfl⟩ := List.mem_map.1 hvalue
  exact item.writable_toJson

theorem listOfBytes?_content (items : List TodoItem) :
    listOfBytes? (JsonFile.content (listToJson items)) = some items := by
  rw [listOfBytes?, parse?_content (writable_listToJson items), Option.bind_some,
    listOfJson?_listToJson]

end Gatehouse.TodoItem
