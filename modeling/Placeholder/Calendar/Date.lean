/-!
# Dates of the proleptic Gregorian calendar

A date carries the proof that it exists. The number of a day counts from the first of January 1970;
`Date.dayNumber` and `Date.ofDayNumber?` pass from one description to the other, and the weekday,
the day of the year and the week of the year are read off them.
-/

namespace Placeholder.Calendar

def minYear : Int := -262143

def maxYear : Int := 262142

def isLeapYear (year : Int) : Bool :=
  year % 4 == 0 && (year % 100 != 0 || year % 400 == 0)

def monthLengths (leap : Bool) : List Nat :=
  [31, if leap then 29 else 28, 31, 30, 31, 30, 31, 31, 30, 31, 30, 31]

/-- The length of a month counted from 1; a month that does not exist has no days. -/
def monthLength (year : Int) (month : Nat) : Nat :=
  if month = 0 then 0 else (monthLengths (isLeapYear year)).getD (month - 1) 0

def daysInMonth (year : Int) (month : Nat) : Nat :=
  if minYear ≤ year ∧ year ≤ maxYear ∧ 1 ≤ month ∧ month ≤ 12 then monthLength year month else 31

def IsDate (year : Int) (month day : Nat) : Prop :=
  minYear ≤ year ∧ year ≤ maxYear ∧ 1 ≤ month ∧ month ≤ 12 ∧ 1 ≤ day ∧ day ≤ monthLength year month

instance (year : Int) (month day : Nat) : Decidable (IsDate year month day) := by
  unfold IsDate
  infer_instance

structure Date where
  year : Int
  month : Nat
  day : Nat
  exists_date : IsDate year month day
  deriving DecidableEq

namespace Date

def of? (year : Int) (month day : Nat) : Option Date :=
  if h : IsDate year month day then some ⟨year, month, day, h⟩ else none

end Date

/-- The days from the first of January of the year 1 to the first of January of `year`. -/
def daysBeforeYear (year : Int) : Int :=
  let y := year - 1
  365 * y + y / 4 - y / 100 + y / 400

/-- The days of the year before the first of `month`. -/
def daysBeforeMonth (year : Int) (month : Nat) : Nat :=
  ((monthLengths (isLeapYear year)).take (month - 1)).foldr (· + ·) 0

/-- The number of the first of January 1970, counted from the first of January of the year 1. -/
def epochDay : Int := 719162

/-- The year that holds a day counted from the first of January of the year 1, and the days of that
year before it. Centuries but every fourth, and years but every fourth, are short by a day. -/
def yearAndDay (n : Int) : Int × Nat :=
  let r := (n % 146097).toNat
  let century := min (r / 36524) 3
  let r := r - century * 36524
  let quad := r / 1461
  let r := r - quad * 1461
  let single := min (r / 365) 3
  (400 * (n / 146097) + 100 * century + 4 * quad + single + 1, r - single * 365)

/-- The month that holds the day `r` of a year, and the days of that month before it. -/
def monthAndDay : List Nat → Nat → Nat → Nat × Nat
  | [], month, r => (month, r)
  | length :: lengths, month, r =>
    if r < length then (month, r) else monthAndDay lengths (month + 1) (r - length)

namespace Date

def dayOfYear (d : Date) : Nat :=
  daysBeforeMonth d.year d.month + (d.day - 1)

def dayNumber (d : Date) : Int :=
  daysBeforeYear d.year + d.dayOfYear - epochDay

def ofDayNumber? (n : Int) : Option Date :=
  let (year, rest) := yearAndDay (n + epochDay)
  let (month, before) := monthAndDay (monthLengths (isLeapYear year)) 1 rest
  of? year month (before + 1)

def weekday (d : Date) : Nat :=
  ((d.dayNumber + 4) % 7).toNat

def weekdayFromMonday (d : Date) : Nat :=
  if d.weekday = 0 then 7 else d.weekday

def isWeekend (d : Date) : Bool :=
  d.weekday == 0 || d.weekday == 6

end Date

def newYearWeekday (year : Int) : Nat :=
  (daysBeforeYear year % 7).toNat + 1

/-- The number of weeks of a year; the first week is the one that holds a Thursday. -/
def weeksInYear (year : Int) : Nat :=
  if newYearWeekday year = 4 ∨ (isLeapYear year ∧ newYearWeekday year = 3) then 53 else 52

def Date.week (d : Date) : Int × Nat :=
  let w := (d.dayOfYear + 1 + 10 - d.weekdayFromMonday) / 7
  if w = 0 then (d.year - 1, weeksInYear (d.year - 1))
  else if weeksInYear d.year < w then (d.year + 1, 1)
  else (d.year, w)

end Placeholder.Calendar
