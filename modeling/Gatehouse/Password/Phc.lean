import Gatehouse.Text.Base64
import Gatehouse.Text.Split

set_option autoImplicit false

/-!
# Stored password hashes

The string format of password hashes: fields behind dollar signs, which are the algorithm, its
version, its parameters, the salt, and the output. All but the algorithm may be missing, from the
right or in the middle. `PhcString.parse?` decides what is well-formed; what the fields mean is for
the algorithm to say.
-/

namespace Gatehouse

structure PhcString where
  algorithm : List Char
  version : Option Nat := none
  params : List (List Char × List Char) := []
  salt : Option (List Char) := none
  output : Option (List UInt8) := none
  deriving DecidableEq, Repr

namespace PhcString

def isLower (c : Char) : Bool := 'a' ≤ c && c ≤ 'z'

def isDigit (c : Char) : Bool := '0' ≤ c && c ≤ '9'

def isNameChar (c : Char) : Bool :=
  isLower c || isDigit c || c == '-'

def isValueChar (c : Char) : Bool :=
  isLower c || ('A' ≤ c && c ≤ 'Z') || isDigit c || c == '/' || c == '+' || c == '.' || c == '-'

def isName (cs : List Char) : Bool :=
  1 ≤ cs.length && cs.length ≤ 32 && cs.all isNameChar

def isValue (cs : List Char) : Bool :=
  cs.length ≤ 64 && cs.all isValueChar

/-- A number of 32 bits in decimal digits without leading zeros. -/
def decimal? (cs : List Char) : Option Nat :=
  if cs.isEmpty || !cs.all isDigit then none
  else if cs.head? = some '0' ∧ 1 < cs.length then none
  else
    let n := Nat.ofDigitChars 10 cs 0
    if n < UInt32.size then some n else none

def takeVersion? : List (List Char) → Option (Option Nat × List (List Char))
  | field :: fields =>
    if field.take 2 = ['v', '='] ∧ ',' ∉ field then
      (decimal? (field.drop 2)).map fun version => (some version, fields)
    else some (none, field :: fields)
  | [] => some (none, [])

def param? (cs : List Char) : Option (List Char × List Char) :=
  match Text.splitOn '=' cs with
  | [name, value] => if isName name && isValue value then some (name, value) else none
  | _ => none

def takeParams? :
    List (List Char) → Option (List (List Char × List Char) × List (List Char))
  | field :: fields =>
    if '=' ∈ field then
      if 127 < field.length then none
      else ((Text.splitOn ',' field).mapM param?).map fun params => (params, fields)
    else some ([], field :: fields)
  | [] => some ([], [])

def takeSalt? : List (List Char) → Option (Option (List Char) × List (List Char))
  | field :: fields =>
    if 4 ≤ field.length ∧ field.length ≤ 64 ∧ field.all isValueChar = true then
      some (some field, fields)
    else none
  | [] => some (none, [])

def takeOutput? : List (List Char) → Option (Option (List UInt8) × List (List Char))
  | field :: fields =>
    (Text.base64Decode? field).bind fun bytes =>
      if 10 ≤ bytes.length ∧ bytes.length ≤ 64 then some (some bytes, fields) else none
  | [] => some (none, [])

def ofFields? (algorithm : List Char) (fields : List (List Char)) : Option PhcString := do
  let (version, fields) ← takeVersion? fields
  let (params, fields) ← takeParams? fields
  let (salt, fields) ← takeSalt? fields
  let (output, fields) ← takeOutput? fields
  if fields.isEmpty && isName algorithm then
    some { algorithm, version, params, salt, output }
  else none

def parse? (text : String) : Option PhcString :=
  match Text.splitOn '$' text.toList with
  | [] :: algorithm :: fields => ofFields? algorithm fields
  | _ => none

def printParam (param : List Char × List Char) : List Char :=
  param.1 ++ '=' :: param.2

def printParams : List (List Char × List Char) → List Char
  | [] => []
  | [param] => printParam param
  | param :: params => printParam param ++ ',' :: printParams params

def print (phc : PhcString) : String :=
  let version := phc.version.elim [] fun n => '$' :: 'v' :: '=' :: Nat.toDigits 10 n
  let params := if phc.params.isEmpty then [] else '$' :: printParams phc.params
  let salt := phc.salt.elim [] fun cs => '$' :: cs
  let output := phc.output.elim [] fun bytes => '$' :: Text.base64Encode bytes
  String.ofList ('$' :: phc.algorithm ++ version ++ params ++ salt ++ output)

end PhcString

end Gatehouse
