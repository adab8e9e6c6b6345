import Gatehouse.Settings.Value
import Gatehouse.Text.Numeral

set_option autoImplicit false

/-!
# Paths to configuration values

A name such as `board.rows` or `servers[-1].host` leads through tables and lists. A name that is not
of this form stands for itself.
-/

namespace Gatehouse

inductive ConfigStep where
  | name (name : String)
  | index (index : Int)
  deriving DecidableEq, Repr

abbrev ConfigPath := List ConfigStep

namespace ConfigPath

def isNameChar (c : Char) : Bool :=
  c.isAlphanum || c == '_' || c == '-'

def spanName? (cs : List Char) : Option (String × List Char) :=
  let name := cs.takeWhile isNameChar
  if name.isEmpty then none else some (String.ofList name, cs.drop name.length)

def isBlank (c : Char) : Bool := c == ' ' || c == '\t'

/-- The index between brackets, with blanks around it if wanted. -/
def index? (cs : List Char) : Option Int :=
  let trimmed := ((cs.dropWhile isBlank).reverse.dropWhile isBlank).reverse
  if trimmed.head? = some '+' then none
  else (Text.signed? trimmed).filter Text.fitsInt64

def readSteps? : Nat → List Char → Option ConfigPath
  | _, [] => some []
  | 0, _ => none
  | steps + 1, '.' :: rest => do
    let (name, rest) ← spanName? rest
    pure (.name name :: (← readSteps? steps rest))
  | steps + 1, '[' :: rest => do
    let inside := rest.takeWhile (· ≠ ']')
    let index ← index? inside
    match rest.drop inside.length with
    | ']' :: rest => pure (.index index :: (← readSteps? steps rest))
    | _ => none
  | _ + 1, _ => none

def read? (text : String) : Option ConfigPath := do
  let (name, rest) ← spanName? text.toList
  pure (.name name :: (← readSteps? rest.length rest))

def ofName (name : String) : ConfigPath :=
  (read? name).getD [.name name]

end ConfigPath

namespace ConfigValue

/-- Changes the value at the end of a path, and makes tables and lists of what is on the way. -/
def changeAt (f : ConfigValue → ConfigValue) : ConfigPath → ConfigValue → ConfigValue
  | [], value => f value
  | .name name :: path, value => changeName name (changeAt f path) value
  | .index index :: path, value => changeItem index (changeAt f path) value

def set (path : ConfigPath) (value below : ConfigValue) : ConfigValue :=
  changeAt (overlay · value) path below

def setAll (values : List (String × ConfigValue)) (below : ConfigValue) : ConfigValue :=
  values.foldl (fun below entry => set (ConfigPath.ofName entry.1) entry.2 below) below

end ConfigValue

end Gatehouse
