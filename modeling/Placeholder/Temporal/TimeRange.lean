import Placeholder.Calendar.DateTime
import Placeholder.Failure

/-!
# Daily time ranges

A range of the day from one minute up to, but not including, another. When it starts later than it
ends it runs past midnight.
-/

namespace Placeholder.Temporal

/-- The time at the start of a text: an hour of one or two digits, a colon and two digits of
minutes. The result is the hour, the minute and what follows. -/
def takeClock? (cs : List Char) : Option (Nat × Nat × List Char) :=
  let hour := cs.takeWhile Char.isDigit
  match cs.dropWhile Char.isDigit with
  | ':' :: a :: b :: rest =>
    if (hour.length = 1 ∨ hour.length = 2) ∧ Text.digitsValue hour < 24 ∧ a.isDigit ∧ b.isDigit ∧
        Text.digitValue a < 6 then
      some (Text.digitsValue hour, Text.digitsValue [a, b], rest)
    else none
  | _ => none

def readClock? (cs : List Char) : Option Nat :=
  match takeClock? cs with
  | some (hour, minute, []) => some (60 * hour + minute)
  | _ => none

/-- The two times at the start of a text with a dash between them, and what follows. -/
def takeClockPair? (cs : List Char) : Option ((Nat × Nat) × (Nat × Nat) × List Char) :=
  match takeClock? cs with
  | some (h, m, '-' :: rest) => (takeClock? rest).map fun (h', m', rest) => ((h, m), (h', m'), rest)
  | _ => none

def clockText (hour minute : Nat) : String :=
  String.ofList (Text.padded 2 hour ++ ':' :: Text.padded 2 minute)

/-- A range of the day, with its ends as they are written and as minutes of the day. -/
structure TimeRange where
  start : String
  stop : String
  startMinute : Nat
  stopMinute : Nat
  deriving DecidableEq, Repr

namespace TimeRange

def clock (text : String) : Except GrammarError Nat :=
  match readClock? text.toList with
  | some minute => .ok minute
  | none => .error (.invalidTimeRange text)

def between (start stop : String) : Except GrammarError TimeRange := do
  let startMinute ← clock start
  let stopMinute ← clock stop
  .ok ⟨start, stop, startMinute, stopMinute⟩

/-- The range that a text such as `8:00-18:30` names. -/
def read (spec : String) : Except GrammarError TimeRange :=
  let cs := Text.trim spec.toList
  match takeClockPair? cs with
  | some ((h, m), (h', m'), []) => between (clockText h m) (clockText h' m')
  | _ => .error (.invalidTimeRange (String.ofList cs))

/-- The ranges of a list with commas; entries without a character are passed over. -/
def readList (specs : String) : Except GrammarError (List TimeRange) :=
  (((Text.splitOn ',' specs.toList).map Text.trim).filter fun cs => !cs.isEmpty).mapM fun cs =>
    read (String.ofList cs)

def isOvernight (r : TimeRange) : Bool :=
  r.stopMinute < r.startMinute

def contains (r : TimeRange) (t : Calendar.DateTime) : Bool :=
  let minute := t.time.minuteOfDay
  if r.isOvernight then r.startMinute ≤ minute || minute < r.stopMinute
  else r.startMinute ≤ minute && minute < r.stopMinute

def anyContains (rs : List TimeRange) (t : Calendar.DateTime) : Bool :=
  rs.any fun r => r.contains t

end TimeRange

end Placeholder.Temporal
