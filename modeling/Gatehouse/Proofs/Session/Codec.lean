import Gatehouse.Proofs.Json.Compact
import Gatehouse.Session.Codec

set_option autoImplicit false

/-!
# Stored sessions

The stored form of a session denotes that session, whatever its user id and its notices say.
-/

namespace Gatehouse

open Json

theorem Flash.ofJson?_toJson (flash : Flash) : Flash.ofJson? flash.toJson = some flash := by
  cases flash with
  | mk level message => cases level <;> rfl

theorem Flash.writable_toJson (flash : Flash) : Writable flash.toJson := by
  refine .object ?_ ?_
  · intro member hmember
    simp only [List.map_cons, List.map_nil, List.mem_cons, List.not_mem_nil, or_false] at hmember
    rcases hmember with rfl | rfl <;> rfl
  · intro member hmember
    simp only [List.map_cons, List.map_nil, List.mem_cons, List.not_mem_nil, or_false] at hmember
    rcases hmember with rfl | rfl <;> exact .text _

namespace Session

theorem list?_flashes (flashes : List Flash) :
    list? Flash.ofJson? (.array (flashes.map Flash.toJson)) = some flashes := by
  rw [list?]
  induction flashes with
  | nil => rfl
  | cons flash flashes ih => simp [List.mapM_cons, Flash.ofJson?_toJson, ih]

theorem ofJson?_toJson (session : Session) : ofJson? session.toJson = some session := by
  obtain ⟨authenticated, userId, flashes⟩ := session
  have hflashes := list?_flashes flashes
  cases userId with
  | none =>
    simp [ofJson?, toJson, ofFields, record?, valuesOf, bool?, textOrNull?, hflashes]
  | some id =>
    simp [ofJson?, toJson, ofFields, ofText, record?, valuesOf, bool?, textOrNull?, hflashes]

theorem writable_toJson (session : Session) : Writable session.toJson := by
  refine .object ?_ ?_
  · intro member hmember
    simp only [List.map_cons, List.map_nil, List.mem_cons, List.not_mem_nil, or_false] at hmember
    rcases hmember with rfl | rfl | rfl <;> rfl
  · intro member hmember
    simp only [List.map_cons, List.map_nil, List.mem_cons, List.not_mem_nil, or_false] at hmember
    rcases hmember with rfl | rfl | rfl
    · exact .bool _
    · cases session.userId with
      | none => exact .null
      | some id => exact .text _
    · refine .array fun item hitem => ?_
      obtain ⟨flash, -, rfl⟩ := List.mem_map.1 hitem
      exact flash.writable_toJson

theorem ofStored?_toStored (session : Session) :
    ofStored? (Text.utf8 session.toStored.toList) = some session := by
  rw [ofStored?, toStored, parse?_compact session.writable_toJson]
  exact session.ofJson?_toJson

end Session

end Gatehouse
