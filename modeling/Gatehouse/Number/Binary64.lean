set_option autoImplicit false

/-!
# Floating-point numbers

The numbers of the binary format with 64 bits. A finite one is a whole number of units, each of them
`2 ^ -1074`, of which only the 53 leading binary digits can differ from zero.
-/

namespace Gatehouse

inductive Binary64 where
  | nan
  | infinite (negative : Bool)
  | finite (negative : Bool) (units : Nat)
  deriving DecidableEq, Repr

namespace Binary64

def one : Nat := 1 <<< 1074

def step (units : Nat) : Nat :=
  1 <<< (units.log2 - 52)

def nearest (dividend divisor : Nat) : Nat :=
  let quotient := dividend / divisor
  let rest := 2 * (dividend % divisor)
  if divisor < rest ∨ (rest = divisor ∧ quotient % 2 = 1) then quotient + 1 else quotient

def ofRatio (negative : Bool) (dividend divisor : Nat) : Binary64 :=
  let exact := dividend * one
  let grid := step (exact / divisor)
  let units := nearest exact (divisor * grid) * grid
  if units < one <<< 1024 then finite negative units else infinite negative

def ofDecimal (negative : Bool) (digits : Nat) (exponent : Int) : Binary64 :=
  if 400 < exponent + digits.log2 / 4 then
    if digits = 0 then finite negative 0 else infinite negative
  else if exponent + digits.log2 < -400 then finite negative 0
  else if 0 ≤ exponent then ofRatio negative (digits * Nat.pow 10 exponent.toNat) 1
  else ofRatio negative digits (Nat.pow 10 (-exponent).toNat)

def isZero (number : Binary64) : Bool :=
  match number with
  | finite _ 0 => true
  | _ => false

/-- The nearest natural number up to a limit, a half going up. What is below zero, or no number at
all, becomes zero. -/
def toNatUpTo (limit : Nat) : Binary64 → Nat
  | nan => 0
  | infinite negative => if negative then 0 else limit
  | finite negative units => if negative then 0 else min limit ((2 * units + one) / (2 * one))

end Binary64

end Gatehouse
