import Placeholder.Text.Digits
import Placeholder.Text.Pieces

/-!
# Failures

Every way in which reading, resolving or configuring can fail, as a cause with its data. The text of
a failure is computed from the cause by `message`. Resolvers of the host may fail with any text where
a failure has one, and leave out what is optional.
-/

namespace Placeholder

inductive CronFault where
  | fieldCount (n : Nat)
  | occurrence (text : String)
  | schedule
  | other (reason : String)
  deriving DecidableEq, Repr

def CronFault.message : CronFault → String
  | fieldCount n => s!"Expected 5 fields, got {n}"
  | occurrence text => s!"Invalid nth value \"{text}\" in day-of-week field"
  | schedule => "Invalid expression: Invalid cron expression."
  | other reason => reason

inductive GrammarError where
  | unclosedPlaceholder (template : String) (position : Nat)
  | emptyPlaceholder (template : String) (position : Nat)
  | nestedPlaceholder (template : String) (position : Nat)
  | unexpectedCharacter (expression found : String) (position : Nat)
  | unexpectedLexeme (found : String) (position : Nat)
  | expectedCondition (found : String) (position : Nat)
  | missingClosingParen
  | nestingTooDeep (position maxDepth : Nat)
  | invalidNthFormat (condition : String)
  | invalidTimeRange (spec : String)
  | invalidCron (expression : String) (fault : CronFault)
  | invalidDay (day : String)
  | invalidOccurrence (occurrence : Int64)
  deriving DecidableEq, Repr

namespace GrammarError

def position? : GrammarError → Option Nat
  | unclosedPlaceholder _ p => some p
  | emptyPlaceholder _ p => some p
  | nestedPlaceholder _ p => some p
  | unexpectedCharacter _ _ p => some p
  | unexpectedLexeme _ p => some p
  | expectedCondition _ p => some p
  | nestingTooDeep p _ => some p
  | _ => none

def message : GrammarError → String
  | unclosedPlaceholder _ p => s!"Unclosed mustache starting at position {p}"
  | emptyPlaceholder _ p => s!"Empty mustache at position {p}"
  | nestedPlaceholder _ p => s!"Nested mustache braces at position {p}"
  | unexpectedCharacter _ found p => s!"Unexpected character at position {p}: \"{found}\""
  | unexpectedLexeme found p => s!"Unexpected token at position {p}: \"{found}\""
  | expectedCondition found p =>
    s!"Expected condition or grouped expression at position {p}, got: {found}"
  | missingClosingParen => "Missing closing parenthesis"
  | nestingTooDeep p maxDepth =>
    s!"Expression nested too deeply at position {p} (max depth: {maxDepth})"
  | invalidNthFormat condition =>
    s!"Invalid nth weekday syntax: \"{condition}\". Expected nth:DAY:N or nth:DAY:N,M"
  | invalidTimeRange spec =>
    s!"Invalid time range format: \"{spec}\". Expected format: HH:MM-HH:MM"
  | invalidCron expression fault =>
    s!"Invalid CRON expression: \"{expression}\". " ++ fault.message
  | invalidDay day => s!"Invalid day of week: \"{day}\". Expected: monday, tuesday, etc."
  | invalidOccurrence occurrence =>
    "Invalid occurrence: " ++ Text.intText occurrence.toInt ++ ". Expected 1-5 or -1 for last."

end GrammarError

inductive ClauseFault where
  | missingKeyword
  | missingSeparator
  | emptyStatement
  | malformedDeclaration
  | duplicateName (name : String)
  | other (hint : String)
  deriving DecidableEq, Repr

def ClauseFault.hint : ClauseFault → String
  | missingKeyword => "Template must start with \"USE \""
  | missingSeparator => "Missing \"&&\" separator between USE clause and statement"
  | emptyStatement => "Statement after \"&&\" cannot be empty"
  | malformedDeclaration =>
    "Invalid variable declaration format. Expected: \x7bvarname\x7d => \x7b\x7bexpression\x7d\x7d"
  | duplicateName name => "Duplicate variable name: \x7b" ++ name ++ "\x7d"
  | other hint => hint

structure ClauseError where
  template : String
  fault : Option ClauseFault
  deriving DecidableEq, Repr

/-- A text of at most `max` characters: a longer one is cut and ends in an ellipsis. -/
def shorten (max : Nat) (s : String) : String :=
  if s.length ≤ max then s else String.ofList (s.toList.take (max - 3)) ++ "..."

def ClauseError.message (e : ClauseError) : String :=
  "Invalid USE clause syntax in template: " ++ shorten 100 e.template ++
    e.fault.elim "" fun fault => " Hint: " ++ fault.hint

inductive SecurityError where
  | modelNotAllowed (model : String) (allowed : List String)
  | restrictedPath (path : String)
  | depthExceeded (path : String) (maxDepth : Nat)
  | unregisteredFunction (name : String)
  deriving DecidableEq, Repr

def SecurityError.message : SecurityError → String
  | modelNotAllowed model allowed =>
    s!"Model \"{model}\" is not in the allowed models list. Allowed: " ++
      if allowed.isEmpty then "(all)" else Text.join ", " allowed
  | restrictedPath path => "Access to path '" ++ path ++ "' is restricted"
  | depthExceeded path maxDepth =>
    "Path '" ++ path ++ "' exceeds maximum depth of " ++ Text.natText maxDepth
  | unregisteredFunction name => s!"Function not registered: {name}"

inductive MathFault where
  | tooLong (limit : Nat)
  | tooDeep (limit : Nat)
  | invalidOperator (text : String)
  | divisionByZero
  deriving DecidableEq, Repr

def MathFault.message : MathFault → String
  | tooLong limit => s!"Expression exceeds maximum length of {limit} characters"
  | tooDeep limit => s!"Expression exceeds maximum nesting depth of {limit}"
  | invalidOperator text => s!"Operator \"{text}\" is not allowed"
  | divisionByZero => "Division by zero"

structure MathError where
  expression : String
  fault : MathFault
  deriving DecidableEq, Repr

def MathError.message (e : MathError) : String :=
  "Invalid math expression \"" ++ e.expression ++ "\": " ++ e.fault.message

inductive FormatterFault where
  | notAllowed (allowed : List String)
  | notRegistered
  | unsupportedType (typeName : String)
  | failed (reason : String)
  deriving DecidableEq, Repr

def FormatterFault.message : FormatterFault → String
  | notAllowed allowed =>
    "Formatter is not in the allowed list. Allowed formatters: " ++ Text.join ", " allowed
  | notRegistered => "Formatter is not registered"
  | unsupportedType typeName => s!"Formatter does not support values of type \"{typeName}\""
  | failed reason => reason

/-- A formatter that gave no value, with the JSON text of its input once it was run. -/
structure FormatterError where
  name : String
  input : String
  fault : FormatterFault
  deriving DecidableEq, Repr

def FormatterError.message (e : FormatterError) : String :=
  "Formatter \"" ++ e.name ++ "\" failed to process value " ++ e.input ++ ": " ++ e.fault.message

/-- A temporal placeholder or expression without an answer. -/
inductive TemporalError where
  | unknownFunction (family name : String)
  | nthWeekdayArguments
  | lastWeekdayArguments
  | cronRequired (function : String)
  | unknownFamily (name : String)
  | missingEvaluator (keyword : String)
  | unknownKeyword (keyword : String)
  deriving DecidableEq, Repr

def TemporalError.message : TemporalError → String
  | unknownFunction family name => s!"Unknown {family} function: {name}"
  | nthWeekdayArguments => "isNthWeekday requires 2 arguments: dayOfWeek, occurrence"
  | lastWeekdayArguments => "isLastWeekday requires 1 argument: dayOfWeek"
  | cronRequired function => s!"{function} requires a CRON expression (cron:...)"
  | unknownFamily name => s!"Unknown temporal type: {name}"
  | missingEvaluator keyword =>
    s!"No evaluator registered for custom condition: \"{keyword}\""
  | unknownKeyword keyword => s!"Unknown keyword: {keyword}"

inductive VariableFault where
  | noPlaceholder
  | unresolvable (raw kind : String)
  | null
  | other (reason : String)
  deriving DecidableEq, Repr

def unresolvableMessage (raw kind : String) : String :=
  "No resolver found for token: " ++ raw ++ " (type: " ++ kind ++ ")"

def VariableFault.message : VariableFault → String
  | noPlaceholder => "Invalid mustache expression"
  | unresolvable raw kind =>
    "No resolver could handle the expression: " ++ unresolvableMessage raw kind
  | null => "Mustache expression resolved to null"
  | other reason => reason

inductive ResolutionError where
  | unresolvable (raw kind : String)
  | forToken (raw reason : String)
  | temporal (e : TemporalError)
  | other (message : String)
  | conditionNotMet (name value condition expression : String)
  | variableNotResolved (name expression : String) (fault : Option VariableFault)
  | formatter (e : FormatterError)
  | security (e : SecurityError)
  | math (e : MathError)
  deriving DecidableEq, Repr

def ResolutionError.message : ResolutionError → String
  | unresolvable raw kind => unresolvableMessage raw kind
  | forToken raw reason => "Failed to resolve token '" ++ raw ++ "': " ++ reason
  | temporal e => e.message
  | other message => message
  | conditionNotMet name value condition _ =>
    "Condition failed for variable \"" ++ name ++ "\": value " ++ value ++
      " did not satisfy condition \"" ++ condition ++ "\""
  | variableNotResolved name expression fault =>
    "Could not resolve variable \"" ++ name ++ "\" from expression \"" ++ expression ++ "\"" ++
      fault.elim "" fun fault => ": " ++ fault.message
  | formatter e => e.message
  | security e => e.message
  | math e => e.message

inductive ConfigError where
  | missingResolver (name : String)
  | malformed
  | invalidFlag (key value : String)
  | invalidSeconds (key value : String)
  | zeroDepth
  | invalidOption (key reason : String)
  | missingRequired (key : String)
  deriving DecidableEq, Repr

def ConfigError.message : ConfigError → String
  | missingResolver name => s!"Resolver not found: {name}"
  | malformed => "Invalid configuration value for '(root)': malformed document"
  | invalidFlag key value =>
    "Invalid configuration value for '" ++ key ++ "': expected a boolean, got \"" ++ value ++ "\""
  | invalidSeconds key value =>
    "Invalid configuration value for '" ++ key ++
      "': expected a number of seconds, got \"" ++ value ++ "\""
  | zeroDepth =>
    "Invalid configuration value for 'security.max_depth': must be at least 1"
  | invalidOption key reason => "Invalid configuration value for '" ++ key ++ "': " ++ reason
  | missingRequired key => s!"Required configuration key missing: {key}"

inductive Failure where
  | grammar (e : GrammarError)
  | clause (e : ClauseError)
  | resolution (e : ResolutionError)
  | config (e : ConfigError)
  deriving DecidableEq, Repr

namespace Failure

def message : Failure → String
  | grammar e => e.message
  | clause e => e.message
  | resolution e => e.message
  | config e => e.message

def isMalformed : Failure → Bool
  | grammar _ => true
  | clause _ => true
  | _ => false

def security (e : SecurityError) : Failure :=
  resolution (.security e)

def math (e : MathError) : Failure :=
  resolution (.math e)

def formatter (e : FormatterError) : Failure :=
  resolution (.formatter e)

def temporal (e : TemporalError) : Failure :=
  resolution (.temporal e)

end Failure

/-- What succeeds after a first step did not fail in that step. -/
theorem exists_of_bind_eq_ok {ε α β : Type} {x : Except ε α} {f : α → Except ε β} {b : β}
    (h : x >>= f = .ok b) : ∃ a, x = .ok a ∧ f a = .ok b := by
  cases x with
  | error e => cases h
  | ok a => exact ⟨a, rfl, h⟩

end Placeholder
