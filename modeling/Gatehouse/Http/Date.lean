import Gatehouse.Calendar
import Gatehouse.Text.Category
import Gatehouse.Text.Numeral
import Gatehouse.Text.Split

set_option autoImplicit false

/-!
# Dates in headers

A date with a time of day comes in one of three forms: `Sun, 06 Nov 1994 08:49:37 GMT`,
`Sunday, 06-Nov-94 08:49:37 GMT` or `Sun Nov  6 08:49:37 1994`. The names are written as here, and a
date with the wrong day of the week is none.
-/

namespace Gatehouse

structure HttpDate where
  /-- From zero for Monday. -/
  weekday : Nat
  year : Nat
  month : Nat
  day : Nat
  hour : Nat
  minute : Nat
  second : Nat
  deriving DecidableEq, Repr

namespace HttpDate

def weekdayNames : List String :=
  ["Monday", "Tuesday", "Wednesday", "Thursday", "Friday", "Saturday", "Sunday"]

def monthNames : List String :=
  ["Jan", "Feb", "Mar", "Apr", "May", "Jun", "Jul", "Aug", "Sep", "Oct", "Nov", "Dec"]

/-- The day of the week of this name, of which so many letters are kept. -/
def weekday? (letters : Nat) (name : List Char) : Option Nat :=
  weekdayNames.findIdx? fun full => full.toList.take letters = name

def month? (name : List Char) : Option Nat :=
  (monthNames.idxOf? (String.ofList name)).map (· + 1)

def digits? (count : Nat) (cs : List Char) : Option Nat :=
  if cs.length = count then Text.natural? cs else none

def time? : List Char → Option (Nat × Nat × Nat)
  | [h, i, ':', m, n, ':', s, t] => do
    some (← digits? 2 [h, i], ← digits? 2 [m, n], ← digits? 2 [s, t])
  | _ => none

def ofParts? (weekday : Option Nat) (year month day : Option Nat) (time : List Char) :
    Option HttpDate := do
  let (hour, minute, second) ← time? time
  some ⟨← weekday, ← year, ← month, ← day, hour, minute, second⟩

def fullYear (year : Nat) : Nat := if year < 70 then 2000 + year else 1900 + year

def withoutComma? (word : List Char) : Option (List Char) :=
  if word.getLast? = some ',' then some word.dropLast else none

/-- A date in one of the three forms, which need not be one of the calendar. -/
def ofWords? : List (List Char) → Option HttpDate
  | [weekday, day, month, year, time, ['G', 'M', 'T']] => do
    ofParts? (weekday? 3 (← withoutComma? weekday)) (digits? 4 year) (month? month) (digits? 2 day)
      time
  | [weekday, date, time, ['G', 'M', 'T']] =>
    match Text.splitOn '-' date with
    | [day, month, year] => do
      ofParts? (weekday? 9 (← withoutComma? weekday)) ((digits? 2 year).map fullYear)
        (month? month) (digits? 2 day) time
    | _ => none
  | [weekday, month, [], day, time, year] =>
    ofParts? (weekday? 3 weekday) (digits? 4 year) (month? month) (digits? 1 day) time
  | [weekday, month, day, time, year] =>
    ofParts? (weekday? 3 weekday) (digits? 4 year) (month? month) (digits? 2 day) time
  | _ => none

def dayNumber (date : HttpDate) : Nat := Calendar.dayNumber date.year date.month date.day

/-- Whether there was or will be such a second, on this day of the week. -/
def isValid (date : HttpDate) : Bool :=
  1970 ≤ date.year && Calendar.isDate date.year date.month date.day && date.hour < 24 &&
    date.minute < 60 && date.second < 60 && Calendar.weekday date.dayNumber == date.weekday

def seconds (date : HttpDate) : Nat :=
  86400 * date.dayNumber + 3600 * date.hour + 60 * date.minute + date.second

def parse? (value : String) : Option HttpDate :=
  (ofWords? (Text.splitOn ' ' (Text.trim value.toList))).filter isValid

end HttpDate

end Gatehouse
