import Gatehouse.Calendar
import Gatehouse.Number.Decimal
import Gatehouse.Settings.Value
import Gatehouse.Text.Hex
import Gatehouse.Text.Split

set_option autoImplicit false

/-!
# Numbers, truth values and dates in configuration files

A single value outside quotes is a run of characters, and its form tells what it is. Digits may be
grouped by underscores, and whole numbers have at most 64 bits.
-/

namespace Gatehouse.Toml

/-- The digits of a numeral, in which single underscores may stand between digits. -/
def ungroup? (isDigit : Char → Bool) (cs : List Char) : Option (List Char) :=
  let groups := Text.splitOn '_' cs
  if groups.all fun group => !group.isEmpty && group.all isDigit then some groups.flatten else none

def wholeDigits? (cs : List Char) : Option (List Char) :=
  (ungroup? Char.isDigit cs).filter fun digits => digits.length = 1 ∨ digits.head? ≠ some '0'

def integer? (value : Int) : Option ConfigValue :=
  if Text.fitsInt64 value then some (.integer value) else none

def ofBase? (base : Nat) (cs : List Char) : Option ConfigValue :=
  let isDigit (c : Char) : Bool := (Text.hexValue? c.toNat).any (· < base)
  (ungroup? isDigit cs).bind fun digits =>
    integer? (digits.foldl (fun n c => base * n + (Text.hexValue? c.toNat).getD 0) 0 : Nat)

def decimalInteger? (cs : List Char) : Option ConfigValue := do
  let digits ← wholeDigits? (Text.sign cs).2
  let value : Int := Nat.ofDigitChars 10 digits 0
  integer? (if (Text.sign cs).1 then -value else value)

def decimalNumber? (cs : List Char) : Option ConfigValue := do
  let (negative, cs) := Text.sign cs
  let parts := Binary64.DecimalParts.of cs
  if parts.fraction.isNone && parts.exponent.isNone then none
  let whole ← wholeDigits? parts.whole
  let fraction ← (parts.fraction.map (ungroup? Char.isDigit)).getD (some [])
  let exponent ← match parts.exponent with
    | none => some 0
    | some cs =>
      (ungroup? Char.isDigit (Text.sign cs).2).map fun digits =>
        let value : Int := Nat.ofDigitChars 10 digits 0
        if (Text.sign cs).1 then -value else value
  match ← Binary64.ofParts? negative whole fraction exponent with
  | .infinite _ => none
  | number => some (.number number)

def number? (cs : List Char) : Option ConfigValue :=
  match cs with
  | '0' :: 'x' :: digits => ofBase? 16 digits
  | '0' :: 'o' :: digits => ofBase? 8 digits
  | '0' :: 'b' :: digits => ofBase? 2 digits
  | cs =>
    let (negative, rest) := Text.sign cs
    if rest = "inf".toList then some (.number (.infinite negative))
    else if rest = "nan".toList then some (.number .nan)
    else (decimalInteger? cs).orElse fun _ => decimalNumber? cs

def two? (tens ones : Char) : Option Nat := Text.natural? [tens, ones]

def date? : List Char → Option (List Char × List Char)
  | a :: b :: c :: d :: '-' :: m :: n :: '-' :: e :: f :: rest => do
    let year ← Text.natural? [a, b, c, d]
    let month ← two? m n
    let day ← two? e f
    if Calendar.isDate year month day then some ([a, b, c, d, '-', m, n, '-', e, f], rest) else none
  | _ => none

def fractionText (digits : List Char) : List Char :=
  let kept := ((digits.take 9).reverse.dropWhile (· = '0')).reverse
  if kept.isEmpty then ['0'] else kept

def seconds? : List Char → Option (List Char × List Char)
  | ':' :: s :: t :: rest => do
    let second ← two? s t
    if 60 < second then none
    match rest with
    | '.' :: rest =>
      let digits := rest.takeWhile Char.isDigit
      if digits.isEmpty then none
      else some (':' :: s :: t :: '.' :: fractionText digits, rest.drop digits.length)
    | rest => some ([':', s, t], rest)
  | rest => some ([], rest)

def time? : List Char → Option (List Char × List Char)
  | h :: i :: ':' :: m :: n :: rest => do
    let hour ← two? h i
    let minute ← two? m n
    if 23 < hour ∨ 59 < minute then none
    let (seconds, rest) ← seconds? rest
    some (h :: i :: ':' :: m :: n :: seconds, rest)
  | _ => none

/-- The distance of a time from universal time, as text, if it is given. A distance of zero has a
plus sign. -/
def offset? : List Char → Option (List Char)
  | [] => some []
  | ['Z'] => some ['Z']
  | ['z'] => some ['Z']
  | [sign, h, i, ':', m, n] => do
    let hour ← two? h i
    let minute ← two? m n
    let shown := if hour = 0 ∧ minute = 0 then '+' else sign
    if (sign = '+' ∨ sign = '-') ∧ hour ≤ 23 ∧ minute ≤ 59 then some [shown, h, i, ':', m, n]
    else none
  | _ => none

def moment? (cs : List Char) : Option ConfigValue := do
  match date? cs with
  | some (date, []) => some (.text (String.ofList date))
  | some (date, mark :: rest) =>
    if mark ≠ 'T' ∧ mark ≠ 't' ∧ mark ≠ ' ' then none
    let (time, rest) ← time? rest
    some (.text (String.ofList (date ++ 'T' :: time ++ (← offset? rest))))
  | none =>
    match ← time? cs with
    | (time, []) => some (.text (String.ofList time))
    | _ => none

def isScalarChar (c : Char) : Bool :=
  c.isAlphanum || "_+-.:".contains c

/-- The run of characters in front, in which one blank may part a date from a time. -/
def spanScalar (cs : List Char) : List Char × List Char :=
  let run := cs.takeWhile isScalarChar
  let rest := cs.drop run.length
  match rest with
  | ' ' :: digit :: _ =>
    if (date? run).any (fun found => found.2.isEmpty) && digit.isDigit then
      let time := rest.tail.takeWhile isScalarChar
      (run ++ ' ' :: time, rest.tail.drop time.length)
    else (run, rest)
  | _ => (run, rest)

def scalar? (cs : List Char) : Option ConfigValue :=
  if cs = "true".toList then some (.flag true)
  else if cs = "false".toList then some (.flag false)
  else (number? cs).orElse fun _ => moment? cs

end Gatehouse.Toml
