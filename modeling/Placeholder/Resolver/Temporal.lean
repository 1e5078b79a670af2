import Placeholder.Calendar.Pattern
import Placeholder.Resolver
import Placeholder.Temporal.Registry

/-!
# The resolver of temporal placeholders

`TEMPORAL:` calls, `NOW` and `TODAY` at a given instant. The predicates of the host, those of a
registry first and then those of the resolver itself, are known to every expression.
-/

namespace Placeholder

open Calendar Temporal

/-- What the resolver of temporal placeholders goes by. -/
structure Clock where
  now : DateTime
  registry : Option Registry := none
  evaluators : Entries Evaluator := []

namespace Value

def ofNat (n : Nat) : Value :=
  .int (Int64.ofNat n)

def ofPattern (t : DateTime) (pattern : String) : Value :=
  .string (t.formatText pattern.toList)

def ofStandardText (t : DateTime) : Value :=
  .string (t.formatText dateTimePattern)

def toOccurrence (v : Value) : Int64 :=
  (v.asInt?.or (Text.readInt64? (Text.trim v.templateText.toList))).getD 0

end Value

def temporalFailure {α : Type} (e : TemporalError) : Except Failure α :=
  .error (.temporal e)

def cronArgument (expression function : String) : Except Failure Cron :=
  match Text.after? "cron:".toList expression.toList with
  | some spec => (Cron.read (String.ofList spec)).mapError Failure.grammar
  | none => temporalFailure (.cronRequired function)

namespace Clock

def expression (k : Clock) (text : String) : Expression :=
  let base := (k.registry.map fun r => r.expression text).getD { text }
  base.registerAll k.evaluators

def call (k : Clock) (t : Token) : Except Failure Value :=
  let text := (t.meta? "expression").getD ""
  match t.function.getD "" with
  | "isDue" => ((k.expression text).holds k.now).map .bool
  | "nextRun" => do
    let cron ← cronArgument text "nextRun"
    .ok (Value.ofOption ((cron.next? k.now).map Value.ofStandardText))
  | "previousRun" => do
    let cron ← cronArgument text "previousRun"
    .ok (Value.ofOption ((cron.previous? k.now).map Value.ofStandardText))
  | "isNthWeekday" =>
    match t.args with
    | day :: n :: _ =>
      (Tree.orMalformed (isNthWeekday day.templateText n.toOccurrence k.now)).map .bool
    | _ => temporalFailure .nthWeekdayArguments
  | "isLastWeekday" =>
    match t.args with
    | day :: _ => (Tree.orMalformed (isLastWeekday day.templateText k.now)).map .bool
    | [] => temporalFailure .lastWeekdayArguments
  | name => temporalFailure (.unknownFunction "TEMPORAL" name)

def patternArgument (t : Token) (default : String) : String :=
  (t.args.head?).elim default Value.templateText

/-- The number of the weekday, the day, the month and the year, and whether the day belongs to the
weekend. -/
def datePart? (d : Date) (name : String) : Option Value :=
  match name with
  | "dayOfWeek" => some (.ofNat d.weekday)
  | "dayOfMonth" => some (.ofNat d.day)
  | "month" => some (.ofNat d.month)
  | "year" => some (.int (Int64.ofInt d.year))
  | "isWeekday" => some (.bool !d.isWeekend)
  | "isWeekend" => some (.bool d.isWeekend)
  | _ => none

def nowPart? (t : Token) (now : DateTime) (name : String) : Option Value :=
  match name with
  | "default" | "datetime" => some (.ofStandardText now)
  | "format" => some (.ofPattern now (patternArgument t "Y-m-d H:i:s"))
  | "timestamp" => some (.int (clampInt64 now.timestamp))
  | "iso8601" | "atom" | "rfc3339" => some (.string (now.formatText atomPattern))
  | "date" => some (.ofPattern now "Y-m-d")
  | "time" => some (.ofPattern now "H:i:s")
  | "hour" => some (.ofNat now.time.hour)
  | "minute" => some (.ofNat now.time.minute)
  | "second" => some (.ofNat now.time.second)
  | name => datePart? now.date name

def todayPart? (t : Token) (today : DateTime) (name : String) : Option Value :=
  let d := today.date
  match name with
  | "default" => some (.ofPattern today "Y-m-d")
  | "format" => some (.ofPattern today (patternArgument t "Y-m-d"))
  | "startOfDay" => some (.ofStandardText today)
  | "endOfDay" => some (.ofPattern today "Y-m-d 23:59:59")
  | "timestamp" => some (.int (clampInt64 today.timestamp))
  | "dayOfYear" => some (.ofNat (d.dayOfYear + 1))
  | "weekOfYear" => some (.ofNat d.week.2)
  | "isFirstDayOfMonth" => some (.bool (d.day == 1))
  | "isLastDayOfMonth" => some (.bool (d.day == daysInMonth d.year d.month))
  | name => datePart? d name

def orUnknown (family name : String) : Option Value → Except Failure Value
  | some v => .ok v
  | none => temporalFailure (.unknownFunction family name)

def resolve (k : Clock) (t : Token) : Except Failure Value :=
  let name := t.function.getD "default"
  match (t.meta? "temporal_type").getD "unknown" with
  | "temporal" => k.call t
  | "now" => orUnknown "NOW" name (nowPart? t k.now name)
  | "today" => orUnknown "TODAY" name (todayPart? t k.now.startOfDay name)
  | family => temporalFailure (.unknownFamily family)

end Clock

def Resolver.temporal (k : Clock) : Resolver :=
  ofKinds "temporal" 90 [.temporal] fun t _ => k.resolve t

end Placeholder
