import Placeholder.Entries
import Placeholder.Temporal.Cron
import Placeholder.Temporal.TimeRange

/-!
# Temporal conditions as trees

Conditions on an instant, joined by conjunction, disjunction and negation. Operands are evaluated
from left to right, and no further than the answer needs; a condition that fails before the answer
is found is the failure of the whole.
-/

namespace Placeholder.Temporal

open Calendar

inductive Tree where
  | all (operands : List Tree)
  | any (operands : List Tree)
  | not (operand : Tree)
  | keyword (name : String)
  | timeRange (spec : String)
  | cron (spec : String)
  | nthWeekday (day : String) (occurrences : List Int64)
  | lastWeekday (day : String)
  | custom (name : String)
  | constant (value : Bool)

abbrev Evaluator := DateTime → Bool

def builtInKeywords : List String :=
  ["always", "never", "weekday", "weekend"]

def builtIn? (name : String) : Option Evaluator :=
  match name with
  | "always" => some fun _ => true
  | "never" => some fun _ => false
  | "weekday" => some fun t => !t.isWeekend
  | "weekend" => some fun t => t.isWeekend
  | _ => none

namespace Tree

def ofAll : List Tree → Tree
  | [t] => t
  | ts => all ts

def ofAny : List Tree → Tree
  | [t] => t
  | ts => any ts

def orMalformed {α : Type} (r : Except GrammarError α) : Except Failure α :=
  r.mapError Failure.grammar

def ask (evaluator : Option Evaluator) (missing : TemporalError) (t : DateTime) :
    Except Failure Bool :=
  match evaluator with
  | some f => .ok (f t)
  | none => .error (.temporal missing)

mutual

def holds (evaluators : Entries Evaluator) (t : DateTime) : Tree → Except Failure Bool
  | all ts => allHold evaluators t ts
  | any ts => anyHolds evaluators t ts
  | not c => do return !(← holds evaluators t c)
  | keyword name => ask (builtIn? name) (.unknownKeyword name) t
  | timeRange spec => do return (← orMalformed (TimeRange.read spec)).contains t
  | cron spec => do return (← orMalformed (Cron.read spec)).isDue t
  | nthWeekday day ns => orMalformed (isAnyNthWeekday day ns t)
  | lastWeekday day => orMalformed (isLastWeekday day t)
  | custom name => ask (evaluators.get? name) (.missingEvaluator name) t
  | constant value => .ok value

def allHold (evaluators : Entries Evaluator) (t : DateTime) : List Tree → Except Failure Bool
  | [] => .ok true
  | c :: cs => do if ← holds evaluators t c then allHold evaluators t cs else return false

def anyHolds (evaluators : Entries Evaluator) (t : DateTime) : List Tree → Except Failure Bool
  | [] => .ok false
  | c :: cs => do if ← holds evaluators t c then return true else anyHolds evaluators t cs

end

end Tree

end Placeholder.Temporal
