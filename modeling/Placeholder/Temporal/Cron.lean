import Placeholder.Temporal.Cron.Schedule
import Placeholder.Temporal.Occurrence

/-!
# Cron expressions

Five fields for minute, hour, day of the month, month and day of the week. Days of the week are
numbered from 0 or 7 for Sunday, and `d#n` asks for the n-th such day of the month. When both kinds
of days are restricted, a day that satisfies either of them is due.
-/

namespace Placeholder.Temporal

open Calendar

namespace Cron

/-- A schedule, and which of its weekday in the month a date has to be. -/
structure Pattern where
  schedule : Schedule
  occurrence : Option Nat
  deriving DecidableEq, Repr

/-- The number of instants among which a pattern with an occurrence looks for a run. -/
def scanLimit : Nat := 100000

namespace Pattern

def acceptsDate (p : Pattern) (d : Date) : Bool :=
  match p.occurrence with
  | none => true
  | some n => occurrenceOf d == n

def isDue (p : Pattern) (t : DateTime) : Bool :=
  p.schedule.includes t && p.acceptsDate t.date

def next? (p : Pattern) (t : DateTime) : Option DateTime := do
  p.schedule.firstWhere? p.acceptsDate scanLimit scanLimit (← t.addSeconds? 1)

def previous? (p : Pattern) (t : DateTime) : Option DateTime := do
  p.schedule.lastWhere? p.acceptsDate scanLimit scanLimit (← t.addSeconds? (-1))

end Pattern

def shortDayNames : List String :=
  ["Sun", "Mon", "Tue", "Wed", "Thu", "Fri", "Sat"]

/-- A number from 0 to 7 as the name of a weekday; anything else stays as it is. -/
def dayName (cs : List Char) : List Char :=
  match Text.readNat? UInt64.size cs with
  | some n => if n ≤ 7 then (shortDayNames.getD (n % 7) "").toList else cs
  | none => cs

/-- A weekday or a range of weekdays by their names. A range up to 7 ends on the Sunday that follows
Saturday. -/
def dayRangeNames (cs : List Char) : List Char :=
  match Text.cut? ['-'] cs with
  | some (first, last) =>
    let name := dayName first
    if last = ['7'] ∧ name ≠ "Sun".toList then name ++ "-Sat,Sun".toList
    else name ++ '-' :: dayName last
  | none => dayName cs

def dayItemNames (cs : List Char) : List Char :=
  match Text.cut? ['/'] cs with
  | some (days, step) => dayRangeNames days ++ '/' :: step
  | none => dayRangeNames cs

def dayFieldNames (cs : List Char) : List Char :=
  [','].intercalate ((Text.splitOn ',' cs).map dayItemNames)

def isRestricted (field : List Char) : Bool :=
  field != ['*'] && field != ['?']

/-- The field for weekdays and the occurrence behind its `#`. -/
def splitOccurrence (field : List Char) : Except CronFault (List Char × Option Nat) :=
  match Text.cut? ['#'] field with
  | none => .ok (field, none)
  | some (day, n) =>
    match Text.readInt64? n with
    | some k =>
      if 1 ≤ k.toInt ∧ k.toInt ≤ 5 then .ok (day, some k.toInt.toNat)
      else .error (.occurrence (String.ofList n))
    | none => .error (.occurrence (String.ofList n))

def patternOf (minute hour day month weekday : List Char) (occurrence : Option Nat) :
    Except CronFault Pattern :=
  let fields := [['0'], minute, hour, day, month, dayFieldNames weekday]
  match Schedule.read? ([' '].intercalate fields) with
  | some s => .ok ⟨s, occurrence⟩
  | none => .error .schedule

/-- The patterns of five fields; two of them when both kinds of days are restricted. -/
def patternsOf (minute hour day month weekday : List Char) :
    Except CronFault (List Pattern) := do
  let (weekday, occurrence) ← splitOccurrence weekday
  if isRestricted day && isRestricted weekday then
    let byDay ← patternOf minute hour day month ['*'] none
    let byWeekday ← patternOf minute hour ['*'] month weekday occurrence
    .ok [byDay, byWeekday]
  else
    let pattern ← patternOf minute hour day month weekday occurrence
    .ok [pattern]

def readPatterns (cs : List Char) : Except CronFault (List Pattern) :=
  match cs with
  | '@' :: _ =>
    match Schedule.read? cs with
    | some s => .ok [⟨s, none⟩]
    | none => .error .schedule
  | cs =>
    match Text.words cs with
    | [minute, hour, day, month, weekday] => patternsOf minute hour day month weekday
    | fields => .error (.fieldCount fields.length)

end Cron

structure Cron where
  text : String
  patterns : List Cron.Pattern
  deriving DecidableEq, Repr

namespace Cron

def read (expression : String) : Except GrammarError Cron :=
  let cs := Text.trim expression.toList
  match readPatterns cs with
  | .ok ps => .ok ⟨String.ofList cs, ps⟩
  | .error fault => .error (.invalidCron (String.ofList cs) fault)

def isDue (c : Cron) (t : DateTime) : Bool :=
  c.patterns.any fun p => p.isDue t.toMinute

def earlier (a b : DateTime) : DateTime :=
  if b.isBefore a then b else a

def later (a b : DateTime) : DateTime :=
  if a.isBefore b then b else a

def choose? (better : DateTime → DateTime → DateTime) : List DateTime → Option DateTime
  | [] => none
  | t :: ts => some (ts.foldl better t)

def next? (c : Cron) (t : DateTime) : Option DateTime :=
  choose? earlier (c.patterns.filterMap fun p => p.next? t.toMinute)

def previous? (c : Cron) (t : DateTime) : Option DateTime :=
  choose? later (c.patterns.filterMap fun p => p.previous? t.toMinute)

/-- The cron expression for an occurrence of a weekday in every month at a time of day. Parts of the
time that are no numbers count as zero. -/
def ofNthWeekday (day : String) (n : Int64) (time : String) : Except GrammarError String := do
  let weekday ← weekdayNumber day
  if 1 ≤ n.toInt ∧ n.toInt ≤ 5 then
    let (hour, minute) := (Text.cut? [':'] time.toList).getD (time.toList, ['0'])
    let number cs := Text.natText ((Text.readNat? UInt32.size (Text.trim cs)).getD 0)
    .ok (number minute ++ " " ++ number hour ++ " * * " ++ Text.natText weekday ++ "#" ++
      Text.intText n.toInt)
  else .error (.invalidOccurrence n)

end Cron

end Placeholder.Temporal
