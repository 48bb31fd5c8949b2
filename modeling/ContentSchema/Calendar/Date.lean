/-!
# Calendar days

Days of the Gregorian calendar carried back to the year one, their place in the year and in
the whole calendar, and the days that a week number names.
-/

namespace ContentSchema

structure Date where
  year : Nat
  month : Nat
  day : Nat
deriving DecidableEq

namespace Date

/-!
## Years and months
-/

def isLeapYear (year : Nat) : Bool :=
  year % 4 = 0 && (year % 100 ≠ 0 || year % 400 = 0)

def monthLengths (year : Nat) : List Nat :=
  [31, if isLeapYear year then 29 else 28, 31, 30, 31, 30, 31, 31, 30, 31, 30, 31]

def monthLength (year month : Nat) : Nat :=
  match month with
  | 0 => 0
  | m + 1 => ((monthLengths year)[m]?).getD 0

def yearLength (year : Nat) : Nat :=
  if isLeapYear year then 366 else 365

def isValid (d : Date) : Bool :=
  1 ≤ d.year && d.year ≤ 9999 && 1 ≤ d.month && d.month ≤ 12 &&
    1 ≤ d.day && d.day ≤ monthLength d.year d.month

def ofParts? (year month day : Nat) : Option Date :=
  let d : Date := ⟨year, month, day⟩
  if d.isValid then some d else none

/-!
## Counting days
-/

def daysBeforeYear (year : Nat) : Nat :=
  let y := year - 1
  y * 365 + y / 4 - y / 100 + y / 400

def daysBeforeMonth (year month : Nat) : Nat :=
  ((monthLengths year).take (month - 1)).foldl (· + ·) 0

/-- The number of a day in the calendar; the first of January of the year one is number one. -/
def ordinal (d : Date) : Nat :=
  daysBeforeYear d.year + daysBeforeMonth d.year d.month + d.day

/-- Month and day for a day of the year counted from one, given the lengths of the months
that remain. -/
def monthAndDay (month dayOfYear : Nat) : List Nat → Nat × Nat
  | [] => (month, dayOfYear)
  | length :: rest =>
      if dayOfYear ≤ length then (month, dayOfYear)
      else monthAndDay (month + 1) (dayOfYear - length) rest

def ofDayOfYear? (year : Nat) (dayOfYear : Int) : Option Date :=
  let inYear (y : Nat) (n : Int) : Option Date :=
    let (month, day) := monthAndDay 1 n.toNat (monthLengths y)
    ofParts? y month day
  if dayOfYear < 1 then inYear (year - 1) (dayOfYear + yearLength (year - 1))
  else if (yearLength year : Int) < dayOfYear then inYear (year + 1) (dayOfYear - yearLength year)
  else inYear year dayOfYear

/-!
## Weeks

The first week of a year is the week, Monday to Sunday, that holds its first Thursday.
-/

def firstWeekday (year : Nat) : Nat :=
  daysBeforeYear year % 7

def hasLongCount (year : Nat) : Bool :=
  firstWeekday year = 3 || (firstWeekday year = 2 && isLeapYear year)

def firstMonday (year : Nat) : Int :=
  let w : Int := firstWeekday year
  if w ≤ 3 then 1 - w else 8 - w

def ofWeek? (year week weekday : Nat) : Option Date :=
  if year = 0 ∨ week = 0 ∨ 53 < week ∨ (week = 53 ∧ !hasLongCount year) then none
  else if weekday = 0 ∨ 7 < weekday then none
  else ofDayOfYear? year (firstMonday year + ((week - 1) * 7 + (weekday - 1) : Nat))

end Date
end ContentSchema
