set_option autoImplicit false

/-!
# JSON values

A value as it was written, so far as a reader of records can tell texts apart. A string that is no
Unicode text, because it holds a lone surrogate or bytes that are not UTF-8, is kept as `none`: it
is well-formed where it is skipped and refused where it is read. Of numbers only the natural ones
written as plain digits are told apart.
-/

namespace Gatehouse

inductive Json where
  | null
  | bool (value : Bool)
  | natural (value : Nat)
  | otherNumber
  | string (text : Option String)
  | array (items : List Json)
  | object (members : List (Option String × Json))

namespace Json

def ofText (text : String) : Json := .string (some text)

/-- An object with the given names, in the given order. -/
def ofFields (fields : List (String × Json)) : Json :=
  .object (fields.map fun field => (some field.1, field.2))

end Json

end Gatehouse
