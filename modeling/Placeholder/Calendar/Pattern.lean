import Placeholder.Calendar.DateTime

/-!
# Date patterns

A pattern is read letter by letter. Each letter of the table stands for a part of the date-time, a
backslash makes the next character stand for itself, and every other character is copied. Times
carry no zone and are written as those of the zero meridian.
-/

namespace Placeholder.Calendar

def dayNames : List String :=
  ["Sunday", "Monday", "Tuesday", "Wednesday", "Thursday", "Friday", "Saturday"]

def monthNames : List String :=
  ["January", "February", "March", "April", "May", "June", "July", "August", "September",
    "October", "November", "December"]

namespace Date

def dayName (d : Date) : List Char :=
  (dayNames.getD d.weekday "").toList

def monthName (d : Date) : List Char :=
  (monthNames.getD (d.month - 1) "").toList

end Date

/-- The ending of an ordinal number: `1st`, `2nd`, `3rd`, `4th`, and `11th` to `13th`. -/
def ordinalSuffix (n : Nat) : String :=
  if 11 ≤ n % 100 ∧ n % 100 ≤ 13 then "th"
  else
    match n % 10 with
    | 1 => "st"
    | 2 => "nd"
    | 3 => "rd"
    | _ => "th"

namespace Time

def dialHour (t : Time) : Nat :=
  if t.hour % 12 = 0 then 12 else t.hour % 12

end Time

/-- Writes a pattern in which `letter` gives the texts of the letters that stand for something. -/
def fillPattern (letter : Char → Option (List Char)) : List Char → List Char
  | [] => []
  | '\\' :: [] => []
  | '\\' :: c :: cs => c :: fillPattern letter cs
  | c :: cs => (letter c).getD [c] ++ fillPattern letter cs

def dateTimePattern : List Char := "Y-m-d H:i:s".toList

def datePattern : List Char := "Y-m-d".toList

def atomPattern : List Char := "Y-m-d\\TH:i:sP".toList

def letterHeadPattern : List Char := "D, d M Y H:i:s O".toList

namespace DateTime

def part (t : DateTime) (letter : Char) : Option (List Char) :=
  let d := t.date
  let hour := t.time.hour
  match letter with
  | 'd' => some (Text.padded 2 d.day)
  | 'D' => some (d.dayName.take 3)
  | 'j' => some (Text.natDigits d.day)
  | 'l' => some d.dayName
  | 'N' => some (Text.natDigits d.weekdayFromMonday)
  | 'w' => some (Text.natDigits d.weekday)
  | 'z' => some (Text.natDigits d.dayOfYear)
  | 'S' => some (ordinalSuffix d.day).toList
  | 'W' => some (Text.padded 2 d.week.2)
  | 'F' => some d.monthName
  | 'm' => some (Text.padded 2 d.month)
  | 'M' => some (d.monthName.take 3)
  | 'n' => some (Text.natDigits d.month)
  | 't' => some (Text.natDigits (daysInMonth d.year d.month))
  | 'L' => some [if isLeapYear d.year then '1' else '0']
  | 'o' => some (Text.intDigits d.week.1)
  | 'Y' => some (Text.intDigits d.year)
  | 'y' => some (Text.padded 2 (d.year % 100).toNat)
  | 'a' => some (if hour < 12 then "am" else "pm").toList
  | 'A' => some (if hour < 12 then "AM" else "PM").toList
  | 'g' => some (Text.natDigits t.time.dialHour)
  | 'G' => some (Text.natDigits hour)
  | 'h' => some (Text.padded 2 t.time.dialHour)
  | 'H' => some (Text.padded 2 hour)
  | 'i' => some (Text.padded 2 t.time.minute)
  | 's' => some (Text.padded 2 t.time.second)
  | 'u' => some (Text.padded 6 (t.time.nanosecond / 1000))
  | 'v' => some (Text.padded 3 (t.time.nanosecond / 1000000))
  | 'e' => some "UTC".toList
  | 'T' => some "UTC".toList
  | 'P' => some "+00:00".toList
  | 'p' => some "+00:00".toList
  | 'O' => some "+0000".toList
  | 'Z' => some ['0']
  | 'I' => some ['0']
  | 'U' => some (Text.intDigits t.timestamp)
  | _ => none

def letter (t : DateTime) (c : Char) : Option (List Char) :=
  match c with
  | 'c' => some (fillPattern t.part atomPattern)
  | 'r' => some (fillPattern t.part letterHeadPattern)
  | c => t.part c

def format (t : DateTime) (pattern : List Char) : List Char :=
  fillPattern t.letter pattern

def formatText (t : DateTime) (pattern : List Char) : String :=
  String.ofList (t.format pattern)

end DateTime

end Placeholder.Calendar
