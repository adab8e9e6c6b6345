import Gatehouse.Http.Request
import Gatehouse.Http.Response
import Gatehouse.Text.Percent
import Gatehouse.Text.Utf8

set_option autoImplicit false

/-!
# Forms

A form is a list of names and values, joined by `=` and `&`, with blanks as `+` and other bytes as
percent escapes. Reading a form picks the fields that are asked for; others are ignored.
-/

namespace Gatehouse

namespace Form

def maxSize : Nat := 2097152

def decode (bytes : List UInt8) : String :=
  Text.ofUtf8Lossy (Text.percentDecode (bytes.map fun b => if b = 0x2B then 0x20 else b))

def ofPiece (piece : List UInt8) : String × String :=
  match Text.splitFirst? 0x3D piece with
  | some (name, value) => (decode name, decode value)
  | none => (decode piece, "")

def pairs (body : List UInt8) : List (String × String) :=
  ((Text.splitOn 0x26 body).filter fun piece => !piece.isEmpty).map ofPiece

end Form

inductive FormError where
  | notForm
  | tooLarge
  | duplicateField (name : String)
  | missingField (name : String)
  deriving DecidableEq, Repr

def FormError.toResponse : FormError → Response
  | .notForm =>
    .plain 415 "Form requests must have `Content-Type: application/x-www-form-urlencoded`"
  | .tooLarge => .plain 413 "Failed to buffer the request body: length limit exceeded"
  | .duplicateField name =>
    .plain 422 s!"Failed to deserialize form body: duplicate field `{name}`"
  | .missingField name =>
    .plain 422 s!"Failed to deserialize form body: missing field `{name}`"

/-- The fields of a form that were asked for, with their values. -/
abbrev Fields := List (String × String)

def Fields.value (fields : Fields) (name : String) : Except FormError String :=
  match fields.lookup name with
  | some value => .ok value
  | none => .error (.missingField name)

namespace Form

/-- The fields read so far and one more, unless it has been read already. -/
def addField (names : List String) (fields : Fields) (pair : String × String) :
    Except FormError Fields :=
  if pair.1 ∉ names then .ok fields
  else if (fields.lookup pair.1).isSome then .error (.duplicateField pair.1)
  else .ok (pair :: fields)

def fieldsOf (names : List String) (pairs : List (String × String)) : Except FormError Fields :=
  pairs.foldlM (addField names) []

def ofRequest (names : List String) (request : Request) : Except FormError Fields :=
  let isForm := (request.plainValue? "content-type").any fun value =>
    value.startsWith "application/x-www-form-urlencoded"
  if !isForm then .error .notForm
  else if maxSize < request.body.length then .error .tooLarge
  else fieldsOf names (pairs request.body)

end Form

end Gatehouse
