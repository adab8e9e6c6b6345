import Gatehouse.Json.Parser
import Gatehouse.Json.Printer
import Gatehouse.Json.Record
import Gatehouse.Session.Basic

set_option autoImplicit false

/-!
# Sessions as JSON

The form in which sessions leave the process. A session without `user_id` belongs to nobody, and one
without `flashes` has none.
-/

namespace Gatehouse

namespace Flash

def toJson (flash : Flash) : Json :=
  .ofFields [("level", .ofText flash.level.name), ("message", .ofText flash.message)]

def ofJson? (json : Json) : Option Flash := do
  let field ← json.record? ["level", "message"] 2
  let level ← FlashLevel.ofName? (← (← field "level").name?)
  let message ← (← field "message").text?
  pure ⟨level, message⟩

end Flash

namespace Session

def toJson (session : Session) : Json :=
  .ofFields
    [("authenticated", .bool session.authenticated),
      ("user_id", (session.userId.map fun id => Json.ofText id.text).getD .null),
      ("flashes", .array (session.flashes.map Flash.toJson))]

def ofJson? (json : Json) : Option Session := do
  let field ← json.record? ["authenticated", "user_id", "flashes"] 2
  let authenticated ← (← field "authenticated").bool?
  let userId ← (field "user_id").elim (some none) Json.textOrNull?
  let flashes ← (field "flashes").elim (some []) (Json.list? Flash.ofJson?)
  pure ⟨authenticated, userId.map UserId.mk, flashes⟩

def toStored (session : Session) : String :=
  session.toJson.toCompactText

def ofStored? (bytes : List UInt8) : Option Session :=
  (Json.parse? bytes).bind ofJson?

end Session

end Gatehouse
