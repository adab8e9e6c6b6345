import Gatehouse.Http.Target

set_option autoImplicit false

/-!
# Requests
-/

namespace Gatehouse

structure Header where
  /-- In lower case. -/
  name : String
  value : String
  deriving DecidableEq, Repr

namespace Header

def isTokenChar (c : Char) : Bool :=
  c.isAlphanum || "!#$%&'*+-.^_`|~".contains c

def isToken (text : String) : Bool :=
  text ≠ "" && text.all isTokenChar

def isValueChar (c : Char) : Bool :=
  c == '\t' || (0x20 ≤ c.toNat && c.toNat ≠ 0x7F)

def isPlain (value : String) : Bool :=
  value.all fun c => c == '\t' || (0x20 ≤ c.toNat && c.toNat ≤ 0x7E)

def of? (name value : String) : Option Header :=
  if isToken name && value.all isValueChar then some ⟨name.toLower, value⟩ else none

end Header

structure Request where
  method : String
  target : Target
  headers : List Header := []
  body : List UInt8 := []
  deriving DecidableEq, Repr

namespace Request

/-- A request from its parts as written, unless one of them cannot be sent. -/
def of? (method target : String) (headers : List (String × String)) (body : List UInt8) :
    Option Request := do
  if !Header.isToken method then none
  let target ← Target.ofText? target
  let headers ← headers.mapM fun header => Header.of? header.1 header.2
  pure ⟨method, target, headers, body⟩

def path (request : Request) : String := request.target.path

def valuesOf (request : Request) (name : String) : List String :=
  (request.headers.filter fun header => header.name == name).map Header.value

def plainValue? (request : Request) (name : String) : Option String :=
  (request.valuesOf name).head?.filter Header.isPlain

def isHead (request : Request) : Bool := request.method == "HEAD"

/-- Whether an answer with this status goes without a body: to a client that asks for the headers
alone, or that has opened a tunnel. -/
def dropsBody (request : Request) (status : Nat) : Bool :=
  request.isHead || (request.method == "CONNECT" && 200 ≤ status && status < 300)

end Request

end Gatehouse
