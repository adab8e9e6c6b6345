import Gatehouse.Json.Basic

set_option autoImplicit false

/-!
# Reading records

A record is an object that has each of its declared fields at most once; members of other names do
not count. It may also be an array of its fields in declared order, from which only fields after the
first `required` may be missing. Readers of single values refuse every other kind of value.
-/

namespace Gatehouse.Json

def text? : Json → Option String
  | .string text => text
  | _ => none

def bool? : Json → Option Bool
  | .bool value => some value
  | _ => none

def word? : Json → Option UInt64
  | .natural value => if value < UInt64.size then some value.toUInt64 else none
  | _ => none

def textOrNull? : Json → Option (Option String)
  | .null => some none
  | .string (some text) => some (some text)
  | _ => none

def list? {α : Type} (read? : Json → Option α) : Json → Option (List α)
  | .array items => items.mapM read?
  | _ => none

/-- A bare name: a string, or an object whose one member has this name and the value `null`. -/
def name? : Json → Option String
  | .string text => text
  | .object [(name, .null)] => name
  | _ => none

def valuesOf (name : String) (members : List (Option String × Json)) : List Json :=
  (members.filter fun member => member.1 == some name).map (·.2)

def record? (fields : List String) (required : Nat) : Json → Option (String → Option Json)
  | .object members =>
    if members.all (fun member => member.1.isSome) ∧
        fields.all (fun name => (valuesOf name members).length ≤ 1) then
      some fun name => (valuesOf name members).head?
    else none
  | .array items =>
    if required ≤ items.length ∧ items.length ≤ fields.length then
      some fun name => (fields.zip items).lookup name
    else none
  | _ => none

/-- An object of texts, as pairs in the order written. -/
def textMembers? : Json → Option (List (String × String))
  | .object members =>
    members.mapM fun member => do
      let name ← member.1
      let text ← member.2.text?
      pure (name, text)
  | _ => none

end Gatehouse.Json
