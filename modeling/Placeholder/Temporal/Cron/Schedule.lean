import Placeholder.Calendar.DateTime
import Placeholder.Temporal.Cron.Field

/-!
# Schedules

A schedule names values for every unit of time and is due when all units agree. The search for the
next instant goes from the largest unit down to the smallest. A bound holds for the first value that
is tried at each level: once a level has moved on, everything below it starts afresh. Years alone
keep the bounds below them when the year of the bound is no value of the schedule.
-/

namespace Placeholder.Temporal.Cron

open Calendar

structure Schedule where
  seconds : List Nat
  minutes : List Nat
  hours : List Nat
  days : List Nat
  months : List Nat
  weekdays : List Nat
  years : List Nat
  deriving DecidableEq, Repr

def shorthands : List (String × String) :=
  [("@yearly", "0 0 0 1 1 *"), ("@monthly", "0 0 0 1 * *"), ("@weekly", "0 0 0 * * 1"),
    ("@daily", "0 0 0 * * *"), ("@hourly", "0 0 * * * *")]

namespace Schedule

/-- The schedule of six fields from seconds to weekdays, and an optional field of years. -/
def ofFields? (cs : List Char) : Option Schedule := do
  let (seconds, cs) ← takeField? .second false cs
  let (minutes, cs) ← takeField? .minute false cs
  let (hours, cs) ← takeField? .hour false cs
  let (days, cs) ← takeField? .day true cs
  let (months, cs) ← takeField? .month false cs
  let (weekdays, cs) ← takeField? .weekday true cs
  let (years, cs) ← if cs.isEmpty then some (TimeUnit.year.values, []) else takeField? .year false cs
  if cs.isEmpty then some ⟨seconds, minutes, hours, days, months, weekdays, years⟩ else none

def read? (cs : List Char) : Option Schedule :=
  match cs with
  | '@' :: _ => (shorthands.lookup (String.ofList cs)).bind fun s => ofFields? s.toList
  | cs => ofFields? cs

def hasWeekday (s : Schedule) (d : Date) : Bool :=
  s.weekdays.contains (d.weekday + 1)

def includesDate (s : Schedule) (d : Date) : Bool :=
  s.years.any (fun y => (y : Int) == d.year) && s.months.contains d.month &&
    s.days.contains d.day && s.hasWeekday d

def includesTime (s : Schedule) (t : Time) : Bool :=
  s.hours.contains t.hour && s.minutes.contains t.minute && s.seconds.contains t.second

def includes (s : Schedule) (t : DateTime) : Bool :=
  s.includesDate t.date && s.includesTime t.time

end Schedule

/-- Tries the values in their order. The first one keeps to the bounds of the levels below, if
`tight` says so; the others do not. -/
def tryEach {α : Type} (values : List Nat) (tight : Bool) (attempt : Bool → Nat → Option α) :
    Option α :=
  match values with
  | [] => none
  | v :: vs => (attempt tight v).or (vs.findSome? (attempt false))

/-- Tries the values from a bound on, which applies only while the search is tight. -/
def tryFrom {α : Type} (values : List Nat) (tight : Bool) (bound : Nat)
    (attempt : Bool → Nat → Option α) : Option α :=
  if tight then tryEach (values.filter (bound ≤ ·)) (values.contains bound) attempt
  else tryEach values false attempt

/-- Tries the values down from a bound, which applies only while the search is tight. -/
def tryDownFrom {α : Type} (values : List Nat) (tight : Bool) (bound : Nat)
    (attempt : Bool → Nat → Option α) : Option α :=
  if tight then tryEach (values.reverse.filter (· ≤ bound)) (values.contains bound) attempt
  else tryEach values.reverse false attempt

namespace Schedule

/-- The first time of the schedule, not before `bound` while the search is tight. -/
def firstTime? (s : Schedule) (tight : Bool) (bound : Time) : Option Time :=
  tryFrom s.hours tight bound.hour fun tight h =>
    tryFrom s.minutes tight bound.minute fun tight m =>
      tryFrom s.seconds tight bound.second fun _ sec => Time.of? h m sec 0

/-- The last time of the schedule, not after `bound` while the search is tight. -/
def lastTime? (s : Schedule) (tight : Bool) (bound : Time) : Option Time :=
  tryDownFrom s.hours tight bound.hour fun tight h =>
    tryDownFrom s.minutes tight bound.minute fun tight m =>
      tryDownFrom s.seconds tight bound.second fun _ sec => Time.of? h m sec 0

/-- The instant on a date, when its weekday is one of the schedule's and it has a time. -/
def onDate? (s : Schedule) (year month day : Nat) (time : Option Time) : Option DateTime := do
  let date ← Date.of? year month day
  if s.hasWeekday date then time.map fun t => ⟨date, t⟩ else none

/-- The first instant of the schedule that is not before `q`. -/
def firstFrom? (s : Schedule) (q : DateTime) : Option DateTime :=
  let d := q.date
  tryEach (s.years.filter fun y => d.year ≤ y) true fun tight y =>
    tryFrom s.months tight d.month fun tight m =>
      let length := monthLength y m
      let bound := if tight then min d.day length else 1
      tryEach (s.days.filter fun n => bound ≤ n && n ≤ length) (tight && s.days.contains d.day)
        fun tight n => s.onDate? y m n (s.firstTime? tight q.time)

/-- The last instant of the schedule that is not after `q`. -/
def lastUpTo? (s : Schedule) (q : DateTime) : Option DateTime :=
  let d := q.date
  tryEach (s.years.reverse.filter fun y => y ≤ d.year) true fun tight y =>
    tryDownFrom s.months tight d.month fun tight m =>
      let length := monthLength y m
      let bound := if tight then min d.day length else length
      tryEach (s.days.reverse.filter (· ≤ bound)) (tight && s.days.contains d.day)
        fun tight n => s.onDate? y m n (s.lastTime? tight q.time)

/-- The number of the schedule's times of day from `t` on. -/
def timesFrom (s : Schedule) (t : Time) : Nat :=
  (s.hours.filter (t.hour < ·)).length * s.minutes.length * s.seconds.length +
    (s.minutes.filter (t.minute < ·)).length * s.seconds.length +
    (s.seconds.filter (t.second ≤ ·)).length

/-- The number of the schedule's times of day up to `t`. -/
def timesUpTo (s : Schedule) (t : Time) : Nat :=
  (s.hours.filter (· < t.hour)).length * s.minutes.length * s.seconds.length +
    (s.minutes.filter (· < t.minute)).length * s.seconds.length +
    (s.seconds.filter (· ≤ t.second)).length

/-- The first instant from `q` on whose date is accepted, among the first `budget` instants. The
instants of a refused date are passed over together. -/
def firstWhere? (s : Schedule) (accepts : Date → Bool) :
    (fuel budget : Nat) → DateTime → Option DateTime
  | 0, _, _ => none
  | fuel + 1, budget, q =>
    (s.firstFrom? q).bind fun t =>
      if budget = 0 then none
      else if accepts t.date then some t
      else (t.startOfDay.addSeconds? 86400).bind
        (firstWhere? s accepts fuel (budget - s.timesFrom t.time))

/-- The last instant up to `q` whose date is accepted, among the last `budget` instants. -/
def lastWhere? (s : Schedule) (accepts : Date → Bool) :
    (fuel budget : Nat) → DateTime → Option DateTime
  | 0, _, _ => none
  | fuel + 1, budget, q =>
    (s.lastUpTo? q).bind fun t =>
      if budget = 0 then none
      else if accepts t.date then some t
      else (t.startOfDay.addSeconds? (-1)).bind
        (lastWhere? s accepts fuel (budget - s.timesUpTo t.time))

end Schedule

end Placeholder.Temporal.Cron
