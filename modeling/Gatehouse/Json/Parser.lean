import Gatehouse.Json.Basic
import Gatehouse.Text.Hex
import Gatehouse.Text.Utf8

set_option autoImplicit false

/-!
# Reading JSON

`Json.parse?` reads the bytes of one JSON text, with blanks around it and nothing else. The readers
of arrays and objects are bounded by a number of steps that the length of the input always covers.
-/

namespace Gatehouse.Json

def isBlankByte (b : UInt8) : Bool :=
  b == 0x20 || b == 0x09 || b == 0x0A || b == 0x0D

def skipBlanks (bytes : List UInt8) : List UInt8 :=
  bytes.dropWhile isBlankByte

/-- A piece of a string between its quotes: a byte, or an escape that names a UTF-16 code unit. -/
inductive StringUnit where
  | byte (value : UInt8)
  | codeUnit (value : Nat)
  deriving DecidableEq, Repr

def shortEscape? (b : UInt8) : Option UInt8 :=
  if b = 0x22 then some 0x22
  else if b = 0x5C then some 0x5C
  else if b = 0x2F then some 0x2F
  else if b = 0x62 then some 0x08
  else if b = 0x66 then some 0x0C
  else if b = 0x6E then some 0x0A
  else if b = 0x72 then some 0x0D
  else if b = 0x74 then some 0x09
  else none

def codeUnit? (p q r s : UInt8) : Option Nat :=
  Text.readHex? ([p, q, r, s].map fun b => Char.ofNat b.toNat)

def scanString (seen : List StringUnit) : List UInt8 → Option (List StringUnit × List UInt8)
  | [] => none
  | 0x22 :: rest => some (seen.reverse, rest)
  | 0x5C :: 0x75 :: p :: q :: r :: s :: rest =>
    (codeUnit? p q r s).bind fun unit => scanString (.codeUnit unit :: seen) rest
  | 0x5C :: escape :: rest =>
    (shortEscape? escape).bind fun b => scanString (.byte b :: seen) rest
  | b :: rest => if b < 0x20 then none else scanString (.byte b :: seen) rest

def charBytes (code : Nat) : List UInt8 :=
  String.utf8EncodeChar (Char.ofNat code)

/-- The bytes that the units of a string stand for. Surrogates count only in pairs. -/
def unitBytes? : List StringUnit → Option (List UInt8)
  | [] => some []
  | .byte b :: rest => (unitBytes? rest).map (b :: ·)
  | .codeUnit high :: rest =>
    if high < 0xD800 ∨ 0xDFFF < high then (unitBytes? rest).map (charBytes high ++ ·)
    else if high < 0xDC00 then
      match rest with
      | .codeUnit low :: rest =>
        if 0xDC00 ≤ low ∧ low ≤ 0xDFFF then
          (unitBytes? rest).map
            (charBytes (0x10000 + (high - 0xD800) * 0x400 + (low - 0xDC00)) ++ ·)
        else none
      | _ => none
    else none

/-- The text of a string, unless a surrogate stands alone or the bytes are not UTF-8. -/
def unitsText? (units : List StringUnit) : Option String :=
  (unitBytes? units).bind Text.ofUtf8?

def parseString (bytes : List UInt8) : Option (Option String × List UInt8) :=
  (scanString [] bytes).map fun (units, rest) => (unitsText? units, rest)

def isDigitByte (b : UInt8) : Bool :=
  0x30 ≤ b && b ≤ 0x39

def spanDigits (bytes : List UInt8) : List UInt8 × List UInt8 :=
  bytes.span isDigitByte

def digitsValue (digits : List UInt8) : Nat :=
  digits.foldl (fun n b => 10 * n + (b.toNat - 0x30)) 0

def skipDigits? (bytes : List UInt8) : Option (List UInt8) :=
  match spanDigits bytes with
  | ([], _) => none
  | (_, rest) => some rest

def skipFraction? : List UInt8 → Option (List UInt8)
  | 0x2E :: rest => skipDigits? rest
  | rest => some rest

def skipExponent? : List UInt8 → Option (List UInt8)
  | b :: rest =>
    if b = 0x65 ∨ b = 0x45 then
      match rest with
      | 0x2B :: rest => skipDigits? rest
      | 0x2D :: rest => skipDigits? rest
      | rest => skipDigits? rest
    else some (b :: rest)
  | [] => some []

/-- Reads a number without its sign: no leading zeros, and digits on both sides of a point. -/
def parseUnsigned (bytes : List UInt8) : Option (Json × List UInt8) :=
  match spanDigits bytes with
  | ([], _) => none
  | (digits, rest) =>
    if digits.head? = some 0x30 ∧ 1 < digits.length then none
    else
      ((skipFraction? rest).bind skipExponent?).map fun afterwards =>
        if afterwards.length = rest.length then (.natural (digitsValue digits), rest)
        else (.otherNumber, afterwards)

def parseNumber : List UInt8 → Option (Json × List UInt8)
  | 0x2D :: rest => (parseUnsigned rest).map fun (_, rest) => (.otherNumber, rest)
  | rest => parseUnsigned rest

mutual

def parseValue : Nat → List UInt8 → Option (Json × List UInt8)
  | 0, _ => none
  | steps + 1, bytes =>
    match skipBlanks bytes with
    | 0x22 :: rest => (parseString rest).map fun (text, rest) => (.string text, rest)
    | 0x5B :: rest =>
      match skipBlanks rest with
      | 0x5D :: rest => some (.array [], rest)
      | rest => parseItems steps [] rest
    | 0x7B :: rest =>
      match skipBlanks rest with
      | 0x7D :: rest => some (.object [], rest)
      | rest => parseMembers steps [] rest
    | 0x6E :: 0x75 :: 0x6C :: 0x6C :: rest => some (.null, rest)
    | 0x74 :: 0x72 :: 0x75 :: 0x65 :: rest => some (.bool true, rest)
    | 0x66 :: 0x61 :: 0x6C :: 0x73 :: 0x65 :: rest => some (.bool false, rest)
    | rest => parseNumber rest

def parseItems : Nat → List Json → List UInt8 → Option (Json × List UInt8)
  | 0, _, _ => none
  | steps + 1, seen, bytes =>
    (parseValue steps bytes).bind fun (item, rest) =>
      match skipBlanks rest with
      | 0x2C :: rest => parseItems steps (item :: seen) rest
      | 0x5D :: rest => some (.array (item :: seen).reverse, rest)
      | _ => none

def parseMembers :
    Nat → List (Option String × Json) → List UInt8 → Option (Json × List UInt8)
  | 0, _, _ => none
  | steps + 1, seen, bytes =>
    match skipBlanks bytes with
    | 0x22 :: rest =>
      (parseString rest).bind fun (name, rest) =>
        match skipBlanks rest with
        | 0x3A :: rest =>
          (parseValue steps rest).bind fun (value, rest) =>
            match skipBlanks rest with
            | 0x2C :: rest => parseMembers steps ((name, value) :: seen) rest
            | 0x7D :: rest => some (.object ((name, value) :: seen).reverse, rest)
            | _ => none
        | _ => none
    | _ => none

end

def parse? (bytes : List UInt8) : Option Json :=
  (parseValue (2 * bytes.length + 2) bytes).bind fun (value, rest) =>
    if (skipBlanks rest).isEmpty then some value else none

end Gatehouse.Json
