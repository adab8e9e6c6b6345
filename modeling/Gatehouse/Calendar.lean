set_option autoImplicit false

/-!
# The calendar

Days of the Gregorian calendar, counted from the first day of 1970.
-/

namespace Gatehouse.Calendar

def isLeap (year : Nat) : Bool :=
  year % 4 == 0 && (year % 100 != 0 || year % 400 == 0)

def daysIn (year month : Nat) : Nat :=
  if month = 2 then if isLeap year then 29 else 28
  else if month ∈ [4, 6, 9, 11] then 30
  else 31

def isDate (year month day : Nat) : Bool :=
  1 ≤ month && month ≤ 12 && 1 ≤ day && day ≤ daysIn year month

def leapYearsBefore (year : Nat) : Nat :=
  (year - 1) / 4 - (year - 1) / 100 + (year - 1) / 400

def daysBefore (year month : Nat) : Nat :=
  (List.range (month - 1)).foldl (fun days earlier => days + daysIn year (earlier + 1)) 0

def dayNumber (year month day : Nat) : Nat :=
  365 * (year - 1970) + (leapYearsBefore year - leapYearsBefore 1970) + daysBefore year month +
    (day - 1)

/-- The day of the week, from zero for Monday. The first of 1970 was a Thursday. -/
def weekday (number : Nat) : Nat := (number + 3) % 7

end Gatehouse.Calendar
