import Gatehouse.Text.Hex

set_option autoImplicit false

/-!
# Percent escapes

Bytes written as `%` and two hexadecimal digits. Decoding leaves every escape that is not of this
form as it stands, so it never fails.
-/

namespace Gatehouse.Text

def escapedByte? (high low : UInt8) : Option UInt8 :=
  (hexValue? high.toNat).bind fun h => (hexValue? low.toNat).map fun l => (16 * h + l).toUInt8

def percentDecode : List UInt8 → List UInt8
  | 0x25 :: high :: low :: rest =>
    match escapedByte? high low with
    | some b => b :: percentDecode rest
    | none => 0x25 :: percentDecode (high :: low :: rest)
  | b :: rest => b :: percentDecode rest
  | [] => []

def escapeByte (b : UInt8) : List Char :=
  '%' :: (hexDigits 2 b.toNat).map Char.toUpper

/-- Writes `kept` bytes as characters and escapes the others. -/
def percentEncode (kept : UInt8 → Bool) (bytes : List UInt8) : List Char :=
  bytes.flatMap fun b => if kept b then [Char.ofNat b.toNat] else escapeByte b

end Gatehouse.Text
