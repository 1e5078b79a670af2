import Placeholder.Calendar.Pattern
import Placeholder.Calendar.Reading
import Placeholder.Formatter

/-!
# Formatters of dates

Integers count the seconds since 1970, and strings are read as dates and times.
-/

namespace Placeholder

open Calendar

def Value.toDateTime : Value → Except String DateTime
  | .dateTime t => .ok t
  | .int n =>
    match DateTime.ofTimestamp? n.toInt 0 with
    | some t => .ok t
    | none => .error ("timestamp " ++ Text.intText n.toInt ++ " is out of range")
  | .string s =>
    match DateTime.read? (Text.trim s.toList) with
    | some t => .ok t
    | none => .error ("Failed to parse time string (" ++ s ++ ")")
  | v => .error ("cannot convert " ++ v.typeName ++ " to a date")

def Value.ofTimestamp (t : DateTime) : Value :=
  .int (clampInt64 t.timestamp)

namespace Formatter

def dateInput : List String :=
  ["int", "string", "datetime"]

def withPattern (name : String) (pattern : List Value → List Char) : Formatter where
  name := name
  accepts := dateInput
  format := fun v args => v.toDateTime.map fun t => .string (t.formatText (pattern args))

def toTimeString : Formatter :=
  withPattern "toTimeString" fun _ => "H:i:s".toList

def toDateString : Formatter :=
  withPattern "toDateString" fun _ => datePattern

def toDateTime : Formatter :=
  withPattern "toDateTime" fun _ => dateTimePattern

/-- The seconds since 1970; an integer is taken to count them already. -/
def toUnixTime : Formatter where
  name := "toUnixTime"
  accepts := dateInput
  format := fun v _ =>
    match v with
    | .int n => .ok (.int n)
    | v => v.toDateTime.map Value.ofTimestamp

def toIso8601 : Formatter :=
  withPattern "toIso8601" fun _ => atomPattern

def formatDate : Formatter :=
  withPattern "formatDate" fun args => (textArgument args 0 "Y-m-d H:i:s").toList

def dates : List Formatter :=
  [toTimeString, toDateString, toDateTime, toUnixTime, toIso8601, formatDate]

end Formatter

end Placeholder
