import Gatehouse.Json.Parser
import Gatehouse.Json.Printer
import Gatehouse.Json.Record
import Gatehouse.Username

set_option autoImplicit false

/-!
# Usernames as JSON

A username is written as its text. What is read is checked like any other text.
-/

namespace Gatehouse.Username

def toJson (name : Username) : Json :=
  .ofText name.text

def ofJson? (json : Json) : Option Username :=
  json.text?.bind ofText?

def read? (bytes : List UInt8) : Option Username :=
  (Json.parse? bytes).bind ofJson?

end Gatehouse.Username
