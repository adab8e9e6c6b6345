import Gatehouse.Number.Binary64
import Gatehouse.Text.Numeral

set_option autoImplicit false

/-!
# Decimal fractions

Numbers written with a point and an exponent, read as floating-point numbers.
-/

namespace Gatehouse.Binary64

/-- The parts of a decimal: digits before and after the point, and an exponent. -/
structure DecimalParts where
  whole : List Char
  fraction : Option (List Char)
  exponent : Option (List Char)
  deriving DecidableEq, Repr

def DecimalParts.of (cs : List Char) : DecimalParts :=
  let isMark (c : Char) : Bool := c == 'e' || c == 'E'
  let before := cs.takeWhile fun c => !isMark c
  let exponent := if before.length < cs.length then some (cs.drop (before.length + 1)) else none
  let whole := before.takeWhile (· ≠ '.')
  let fraction :=
    if whole.length < before.length then some (before.drop (whole.length + 1)) else none
  ⟨whole, fraction, exponent⟩

def ofParts? (negative : Bool) (whole fraction : List Char) (exponent : Int) : Option Binary64 :=
  (Text.natural? (whole ++ fraction)).map fun digits =>
    ofDecimal negative digits (exponent - fraction.length)

def ofUnsigned? (negative : Bool) (cs : List Char) : Option Binary64 :=
  let word := cs.map Char.toLower
  if word = "inf".toList ∨ word = "infinity".toList then some (infinite negative)
  else if word = "nan".toList then some nan
  else
    let parts := DecimalParts.of cs
    let exponent := (parts.exponent.map Text.signed?).getD (some 0)
    exponent.bind (ofParts? negative parts.whole (parts.fraction.getD []))

def ofText? (text : String) : Option Binary64 :=
  ofUnsigned? (Text.sign text.toList).1 (Text.sign text.toList).2

end Gatehouse.Binary64
