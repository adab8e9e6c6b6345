import Gatehouse.Text.Hex

set_option autoImplicit false

/-!
# Session tokens

A token is a number of 128 bits. It is written in one way, as 32 lower-case hexadecimal digits in
groups of 8, 4, 4, 4 and 12, and read in four: bare digits, the grouped form, the grouped form in
braces, and the grouped form after `urn:uuid:`. Letter case never matters.
-/

namespace Gatehouse

structure SessionToken where
  value : BitVec 128
  deriving DecidableEq

namespace SessionToken

def ofNat (n : Nat) : SessionToken :=
  ⟨.ofNat 128 n⟩

def digits (token : SessionToken) : List Char :=
  Text.hexDigits 32 token.value.toNat

/-- Hyphens after the digits 8, 12, 16 and 20. -/
def group (digits : List Char) : List Char :=
  digits.take 8 ++ '-' :: (digits.drop 8).take 4 ++ '-' :: (digits.drop 12).take 4 ++
    '-' :: (digits.drop 16).take 4 ++ '-' :: digits.drop 20

/-- The digits of a grouped numeral, if the hyphens stand where `group` puts them. -/
def ungroup? (cs : List Char) : Option (List Char) :=
  let digits := cs.take 8 ++ (cs.drop 9).take 4 ++ (cs.drop 14).take 4 ++ (cs.drop 19).take 4 ++
    cs.drop 24
  if digits.length = 32 ∧ cs = group digits then some digits else none

protected def toString (token : SessionToken) : String :=
  String.ofList (group token.digits)

instance : ToString SessionToken := ⟨SessionToken.toString⟩

def ofDigits? (digits : List Char) : Option SessionToken :=
  if digits.length = 32 then (Text.readHex? digits).map ofNat else none

def unwrap (cs : List Char) : List Char :=
  if cs.head? = some '\x7b' ∧ cs.getLast? = some '\x7d' then cs.tail.dropLast
  else if (cs.take 9).map Char.toLower = "urn:uuid:".toList then cs.drop 9
  else cs

def ofText? (text : String) : Option SessionToken :=
  let cs := text.toList
  if cs.length = 32 then ofDigits? cs
  else (ungroup? (unwrap cs)).bind ofDigits?

end SessionToken

end Gatehouse
