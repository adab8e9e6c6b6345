set_option autoImplicit false

/-!
# Decimal numerals

Whole numbers written as decimal digits. Zeros in front do not matter.
-/

namespace Gatehouse.Text

def natural? (cs : List Char) : Option Nat :=
  if cs.isEmpty || !cs.all Char.isDigit then none else some (Nat.ofDigitChars 10 cs 0)

def unsigned? : List Char → Option Nat
  | '+' :: cs => natural? cs
  | cs => natural? cs

/-- Whether a minus sign stands in front, and what follows the sign if there is one. -/
def sign : List Char → Bool × List Char
  | '-' :: cs => (true, cs)
  | '+' :: cs => (false, cs)
  | cs => (false, cs)

def signed? (cs : List Char) : Option Int :=
  (natural? (sign cs).2).map fun n => if (sign cs).1 then -(n : Int) else n

def fitsInt64 (n : Int) : Bool :=
  -0x8000000000000000 ≤ n && n < 0x8000000000000000

end Gatehouse.Text
