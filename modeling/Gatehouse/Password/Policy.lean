import Gatehouse.Json.Record
import Gatehouse.Password.Argon2
import Gatehouse.Password.Phc
import Gatehouse.Text.Utf8
import Gatehouse.Username

set_option autoImplicit false

/-!
# Password policies

How a store keeps passwords: as salted Argon2 hashes, or as they are. Under Argon2 a stored value
tells with which variant, version and parameters it was made, and a value that is no hash at all
matches nothing.
-/

namespace Gatehouse

structure Salt where
  bytes : List UInt8
  length_eq : bytes.length = 16

structure HashError where
  deriving DecidableEq, Repr

def HashError.message (_ : HashError) : String := "Password hashing failed"

namespace StoredHash

def current : Argon2.Params := { memory := 15000, passes := 2, lanes := 1, size := 32 }

def variant? (name : List Char) : Option Argon2.Variant :=
  if name = "argon2id".toList then some .id
  else if name = "argon2i".toList then some .i
  else if name = "argon2d".toList then some .d
  else none

def version? (number : Option Nat) : Option Argon2.Version :=
  match number with
  | none => some .v19
  | some 19 => some .v19
  | some 16 => some .v16
  | some _ => none

/-- Bytes written in Base64, if there are not too many. -/
def shortBytes? (limit : Nat) (value : List Char) : Option (List UInt8) :=
  (Text.base64Decode? value).filter fun bytes => bytes.length ≤ limit

/-- Takes one parameter into account. A key id is allowed and means nothing. -/
def withParam? (params : Argon2.Params) (param : List Char × List Char) :
    Option Argon2.Params :=
  if param.1 = ['m'] then
    (PhcString.decimal? param.2).map fun memory => { params with memory }
  else if param.1 = ['t'] then
    (PhcString.decimal? param.2).map fun passes => { params with passes }
  else if param.1 = ['p'] then
    (PhcString.decimal? param.2).map fun lanes => { params with lanes }
  else if param.1 = "keyid".toList then
    (shortBytes? 8 param.2).map fun _ => params
  else if param.1 = "data".toList then
    (shortBytes? 32 param.2).map fun associated => { params with associated }
  else none

def inRange (params : Argon2.Params) : Bool :=
  8 ≤ params.memory && 8 * params.lanes ≤ params.memory && 1 ≤ params.passes &&
    1 ≤ params.lanes && params.lanes ≤ 0xFFFFFF

/-- The parameters that a stored hash names, for an output of a given size. -/
def params? (phc : PhcString) (size : Nat) : Option Argon2.Params := do
  let variant ← variant? phc.algorithm
  let version ← version? phc.version
  let params ← phc.params.foldlM withParam? { variant, version, size }
  if inRange params then some params else none

def saltBytes? (salt : List Char) : Option (List UInt8) :=
  (Text.base64Decode? salt).filter fun bytes => 8 ≤ bytes.length

def matches? (phc : PhcString) (password : String) : Except HashError Bool :=
  match phc.salt, phc.output with
  | some salt, some output =>
    match params? phc output.length, saltBytes? salt with
    | some params, some bytes =>
      .ok (Argon2.hash params (Text.utf8 password.toList) bytes == output)
    | _, _ => .error {}
  | _, _ => .ok false

def make (salt : Salt) (password : String) : PhcString where
  algorithm := "argon2id".toList
  version := some 19
  params :=
    [(['m'], Nat.toDigits 10 current.memory), (['t'], Nat.toDigits 10 current.passes),
      (['p'], Nat.toDigits 10 current.lanes)]
  salt := some (Text.base64Encode salt.bytes)
  output := some (Argon2.hash current (Text.utf8 password.toList) salt.bytes)

end StoredHash

inductive PasswordPolicy where
  | argon2
  | plaintext
  deriving DecidableEq, Repr

namespace PasswordPolicy

def name : PasswordPolicy → String
  | .argon2 => "argon2"
  | .plaintext => "plaintext"

def ofName? (name : String) : Option PasswordPolicy :=
  [.argon2, .plaintext].find? fun policy : PasswordPolicy => policy.name == name

def ofJson? (json : Json) : Option PasswordPolicy :=
  json.name?.bind ofName?

def protect (policy : PasswordPolicy) (salt : Salt) (password : Password) : String :=
  match policy with
  | .argon2 => (StoredHash.make salt password.text).print
  | .plaintext => password.text

def verify (policy : PasswordPolicy) (stored : String) (candidate : Password) :
    Except HashError Bool :=
  match policy with
  | .argon2 =>
    match PhcString.parse? stored with
    | some phc => StoredHash.matches? phc candidate.text
    | none => .ok false
  | .plaintext => .ok (stored == candidate.text)

end PasswordPolicy

end Gatehouse
