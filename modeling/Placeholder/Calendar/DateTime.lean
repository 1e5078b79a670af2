import Placeholder.Calendar.Date
import Placeholder.Text.Digits

/-!
# Times of day and date-times

A date-time has no zone. Its nanoseconds may exceed a second, which is how a leap second is told
from the second before it.
-/

namespace Placeholder.Calendar

def IsTime (hour minute second nanosecond : Nat) : Prop :=
  hour < 24 ∧ minute < 60 ∧ second < 60 ∧ nanosecond < 2000000000

instance (hour minute second nanosecond : Nat) :
    Decidable (IsTime hour minute second nanosecond) := by
  unfold IsTime
  infer_instance

structure Time where
  hour : Nat
  minute : Nat
  second : Nat
  nanosecond : Nat
  exists_time : IsTime hour minute second nanosecond
  deriving DecidableEq

namespace Time

def of? (hour minute second nanosecond : Nat) : Option Time :=
  if h : IsTime hour minute second nanosecond then some ⟨hour, minute, second, nanosecond, h⟩
  else none

def midnight : Time :=
  ⟨0, 0, 0, 0, by decide⟩

def secondOfDay (t : Time) : Nat :=
  3600 * t.hour + 60 * t.minute + t.second

def minuteOfDay (t : Time) : Nat :=
  60 * t.hour + t.minute

def toMinute (t : Time) : Time :=
  ⟨t.hour, t.minute, 0, 0, ⟨t.exists_time.1, t.exists_time.2.1, by decide, by decide⟩⟩

/-- The time that follows `seconds` seconds after midnight. -/
def ofSecondOfDay? (seconds nanosecond : Nat) : Option Time :=
  of? (seconds / 3600) (seconds / 60 % 60) (seconds % 60) nanosecond

end Time

structure DateTime where
  date : Date
  time : Time
  deriving DecidableEq

namespace DateTime

def of? (year : Int) (month day hour minute second nanosecond : Nat) : Option DateTime := do
  let date ← Date.of? year month day
  let time ← Time.of? hour minute second nanosecond
  some ⟨date, time⟩

def timestamp (t : DateTime) : Int :=
  86400 * t.date.dayNumber + t.time.secondOfDay

/-- The date-time `seconds` seconds after the beginning of 1970, if it lies in the calendar. -/
def ofTimestamp? (seconds : Int) (nanosecond : Nat) : Option DateTime := do
  let date ← Date.ofDayNumber? (seconds / 86400)
  let time ← Time.ofSecondOfDay? (seconds % 86400).toNat nanosecond
  some ⟨date, time⟩

def startOfDay (t : DateTime) : DateTime :=
  ⟨t.date, .midnight⟩

def toMinute (t : DateTime) : DateTime :=
  ⟨t.date, t.time.toMinute⟩

/-- The date-time `seconds` seconds later, if it lies in the calendar. -/
def addSeconds? (t : DateTime) (seconds : Int) : Option DateTime :=
  ofTimestamp? (t.timestamp + seconds) t.time.nanosecond

def isBefore (a b : DateTime) : Bool :=
  a.timestamp < b.timestamp ||
    (a.timestamp == b.timestamp && a.time.nanosecond < b.time.nanosecond)

def isWeekend (t : DateTime) : Bool :=
  t.date.isWeekend

end DateTime

/-- A year with four digits, or with a sign and at least four digits outside 0 to 9999. -/
def yearDigits (year : Int) : List Char :=
  if 0 ≤ year ∧ year ≤ 9999 then Text.padded 4 year.natAbs
  else (if year < 0 then '-' else '+') :: Text.padded 4 year.natAbs

namespace DateTime

def clockSecond (t : DateTime) : Nat :=
  t.time.second + t.time.nanosecond / 1000000000

/-- The date and the time with `separator` between them. -/
def stamp (t : DateTime) (separator : Char) : List Char :=
  yearDigits t.date.year ++ '-' :: Text.padded 2 t.date.month ++ '-' :: Text.padded 2 t.date.day ++
    separator :: Text.padded 2 t.time.hour ++ ':' :: Text.padded 2 t.time.minute ++
    ':' :: Text.padded 2 t.clockSecond

/-- The text of a date-time inside a template: `2025-12-10 14:05:09`. -/
def text (t : DateTime) : String :=
  String.ofList (t.stamp ' ')

def isoText (t : DateTime) : String :=
  String.ofList <| t.stamp 'T' ++
    if t.time.nanosecond % 1000000000 = 0 then []
    else '.' :: Text.padded 9 (t.time.nanosecond % 1000000000)

end DateTime

end Placeholder.Calendar
