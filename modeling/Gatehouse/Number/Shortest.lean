import Gatehouse.Number.Binary64

set_option autoImplicit false

/-!
# Shortest decimals

A floating-point number is written with the fewest digits that read back as the same number, and of
these as the nearest, or the larger of two that are equally near. The digits are written in full,
without an exponent.
-/

namespace Gatehouse.Binary64

def power (exponent : Int) : Nat × Nat :=
  if 0 ≤ exponent then (Nat.pow 10 exponent.toNat, 1) else (1, Nat.pow 10 (-exponent).toNat)

/-- Quarter units: what lies at most this far below and above a number of units is read as it. Below
a power of two the numbers lie closer together. -/
def margins (units : Nat) : Nat × Nat :=
  let above := 2 * step units
  if units = 1 <<< units.log2 ∧ 1 < step units then (above / 2, above) else (above, above)

def readsAs (units count : Nat) (exponent : Int) : Bool :=
  let (dividend, divisor) := power exponent
  let (below, above) := margins units
  let value := 4 * count * dividend * one
  let low := (4 * units - below) * divisor
  let high := (4 * units + above) * divisor
  if units / step units % 2 = 0 then low ≤ value && value ≤ high
  else low < value && value < high

def multiple? (units : Nat) (exponent : Int) : Option Nat :=
  let (dividend, divisor) := power exponent
  let count := units * divisor / (dividend * one)
  let doubled := 2 * (units * divisor % (dividend * one))
  match readsAs units count exponent, readsAs units (count + 1) exponent with
  | true, true => some (if doubled < dividend * one then count else count + 1)
  | true, false => some count
  | false, true => some (count + 1)
  | false, false => none

def shortestFrom (units : Nat) : Nat → Int → Nat × Int
  | 0, exponent => (0, exponent)
  | steps + 1, exponent =>
    match multiple? units exponent with
    | some count => if count = 0 then shortestFrom units steps (exponent - 1) else (count, exponent)
    | none => shortestFrom units steps (exponent - 1)

def shortest (units : Nat) : Nat × Int :=
  let exponent : Int := ((units.log2 : Int) - 1074) * 30103 / 100000 + 2
  shortestFrom units 24 exponent

def positional (digits : List Char) (exponent : Int) : List Char :=
  if 0 ≤ exponent then digits ++ List.replicate exponent.toNat '0'
  else
    let places := (-exponent).toNat
    let padded := List.replicate (places + 1 - digits.length) '0' ++ digits
    padded.take (padded.length - places) ++ '.' :: padded.drop (padded.length - places)

protected def toText (number : Binary64) : String :=
  match number with
  | nan => "NaN"
  | infinite negative => if negative then "-inf" else "inf"
  | finite negative units =>
    let digits :=
      if units = 0 then ['0']
      else positional (Nat.toDigits 10 (shortest units).1) (shortest units).2
    String.ofList (if negative then '-' :: digits else digits)

end Gatehouse.Binary64
