import Placeholder.Calendar.DateTime
import Placeholder.Failure
import Placeholder.Text.Casing

/-!
# Weekdays within the month

The first to fifth occurrence of a weekday, or its last one. Name and number are checked before the
date is looked at, so that a mistake shows on every date.
-/

namespace Placeholder.Temporal

open Calendar

def weekdayNames : List (String × Nat) :=
  [("sunday", 0), ("sun", 0), ("monday", 1), ("mon", 1), ("tuesday", 2), ("tue", 2),
    ("wednesday", 3), ("wed", 3), ("thursday", 4), ("thu", 4), ("friday", 5), ("fri", 5),
    ("saturday", 6), ("sat", 6)]

def weekdayNumber (day : String) : Except GrammarError Nat :=
  let name := String.ofList (Text.lower (Text.trim day.toList))
  match weekdayNames.lookup name with
  | some n => .ok n
  | none => .error (.invalidDay name)

def occurrenceOf (d : Date) : Nat :=
  (d.day + 6) / 7

def isLastOfMonth (d : Date) : Bool :=
  daysInMonth d.year d.month < d.day + 7

/-- Whether a date is the occurrence with this number; -1 stands for the last one. -/
def matchesOccurrence (n : Int64) (d : Date) : Bool :=
  if n = -1 then isLastOfMonth d else n.toInt == occurrenceOf d

def checkOccurrence (n : Int64) : Except GrammarError Unit :=
  if n = -1 ∨ (1 ≤ n.toInt ∧ n.toInt ≤ 5) then .ok () else .error (.invalidOccurrence n)

def isNthWeekday (day : String) (n : Int64) (t : DateTime) : Except GrammarError Bool := do
  let target ← weekdayNumber day
  checkOccurrence n
  .ok (t.date.weekday == target && matchesOccurrence n t.date)

/-- Whether a date-time falls on one of the occurrences of a weekday, tried in their order. -/
def isAnyNthWeekday (day : String) (ns : List Int64) (t : DateTime) : Except GrammarError Bool :=
  match ns with
  | [] => .ok false
  | n :: ns => do
    if ← isNthWeekday day n t then .ok true else isAnyNthWeekday day ns t

def isLastWeekday (day : String) (t : DateTime) : Except GrammarError Bool :=
  isNthWeekday day (-1) t

end Placeholder.Temporal
