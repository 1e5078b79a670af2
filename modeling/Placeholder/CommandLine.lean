import Placeholder.Clause.Resolution
import Placeholder.Configuration

/-!
# The command line

The commands, their arguments, and what each of them writes. A command is a function of its
arguments, the environment, the standard input and the present; reading and writing are left to the
program.
-/

namespace Placeholder

open Calendar

inductive CommandError where
  | failure (e : Failure)
  | json
  | invalidVariable (spec : String)
  | invalidTimestamp (text : String)
  deriving DecidableEq, Repr

def CommandError.message : CommandError → String
  | failure e => "Error: " ++ e.message
  | json => "Invalid JSON: malformed document"
  | invalidVariable spec => "Invalid variable '" ++ spec ++ "'. Expected key=value."
  | invalidTimestamp text =>
    "Invalid timestamp '" ++ text ++ "'. Expected YYYY-MM-DD HH:MM:SS or RFC 3339."

def orFail {α : Type} (r : Except Failure α) : Except CommandError α :=
  r.mapError CommandError.failure

def inputContext : Option String → Except CommandError Context
  | none => .ok .empty
  | some text =>
    match Value.read? text with
    | some v => .ok (Context.ofData v)
    | none => .error .json

/-- A variable `key=value`, whose value is a JSON document or else a text. -/
def readVariable (spec : String) : Except CommandError (String × Value) :=
  match Text.cut? ['='] spec.toList with
  | some (key, raw) =>
    if (Text.trim key).isEmpty then .error (.invalidVariable spec)
    else
      let raw := String.ofList raw
      .ok (String.ofList (Text.trim key), (Value.read? raw).getD (.string raw))
  | none => .error (.invalidVariable spec)

inductive Command where
  | translate (template : String) (input : Option String) (assignments : List String)
      (lenient json : Bool)
  | temporal (expression : String) (instant : Option String)
  | math (expression : String)
  | compound (template : String) (input : Option String) (validate : Bool)
  deriving DecidableEq, Repr

namespace Command

def addVariables (c : Context) (specs : List String) : Except CommandError Context :=
  specs.foldlM (fun c spec => (readVariable spec).map fun (key, v) => c.withVariable key v) c

def runTranslate (k : Clock) (environment : String → Option String) (template : String)
    (input : Option String) (assignments : List String) (lenient : Bool) :
    Except CommandError Translation := do
  let settings ← orFail ((({} : Configuration).withEnvironment environment).mapError .config)
  let calls := Resolver.function [] Formatters.builtIn
  let settings := { settings with resolvers := [.arithmetic, calls] }
  let tr ← orFail ((settings.translator k).mapError .config)
  let c ← inputContext input
  let c ← addVariables (c.withStrict (settings.strict && !lenient)) assignments
  orFail (tr.translate 0 template c).1

def runTemporal (registry : Temporal.Registry) (now : DateTime) (expression : String)
    (instant : Option String) : Except CommandError Bool := do
  let t ←
    match instant with
    | none => .ok now
    | some text =>
      match DateTime.read? (Text.trim text.toList) with
      | some t => .ok t
      | none => .error (.invalidTimestamp text)
  orFail ((registry.expression expression).holds t)

def runMath (expression : String) : Except CommandError Value :=
  match Arithmetic.evaluate expression with
  | .ok n => .ok (.ofScalar n)
  | .error e => .error (.failure (.math e))

/-- Resolves a template with a clause; no statement stands for a condition that is not met. -/
def runCompound (k : Clock) (template : String) (input : Option String) :
    Except CommandError (Option String) := do
  let c ← inputContext input
  orFail (Clause.tryResolve (.ofList (Resolver.defaults k)) template c)

end Command

structure Outcome where
  code : Nat := 0
  output : String := ""
  errors : String := ""
  deriving DecidableEq, Repr

namespace Outcome

def lines (ss : List String) : String :=
  Text.join "" (ss.map (· ++ "\n"))

def printed (s : String) : Outcome :=
  { output := lines [s] }

def refused (code : Nat) (ss : List String) : Outcome :=
  { code, errors := lines ss }

def ofResult {α : Type} (write : α → Outcome) : Except CommandError α → Outcome
  | .ok a => write a
  | .error e => refused 1 [e.message]

def ofTranslation (json : Bool) (t : Translation) : Outcome :=
  if json then printed t.toJson.indentedText
  else
    let warnings := t.warnings.map ("warning: " ++ ·)
    match t.translated with
    | some s => { output := lines [s], errors := lines warnings }
    | none =>
      refused 1 (warnings ++ t.failureReason.getD "" :: t.errors.map ("  " ++ ·))

end Outcome

namespace Command

def readsInput : Command → Bool
  | translate _ none _ _ _ => true
  | compound _ none false => true
  | _ => false

/-- The input of a command: the one that is given, or the standard input if it is not blank. -/
def inputOr (stdin : String) (input : Option String) : Option String :=
  match input with
  | some text => some text
  | none => if (Text.trim stdin.toList).isEmpty then none else some stdin

def run (k : Clock) (environment : String → Option String) (stdin : String) : Command → Outcome
  | translate template input assignments lenient json =>
    .ofResult (.ofTranslation json)
      (runTranslate k environment template (inputOr stdin input) assignments lenient)
  | temporal expression instant =>
    .ofResult (fun holds => .printed (if holds then "true" else "false"))
      (runTemporal .fresh k.now expression instant)
  | math expression => .ofResult (fun v => .printed v.templateText) (runMath expression)
  | compound template _ true =>
    match Clause.validate template with
    | [] => .printed "valid"
    | errors => .refused 1 errors
  | compound template input false =>
    .ofResult (fun s => s.elim (.refused 2 ["condition not met"]) .printed)
      (runCompound k template (inputOr stdin input))

structure Arguments where
  positional : List String := []
  options : List (String × String) := []
  flags : List String := []

def Arguments.addOption (a : Arguments) (name value : String) : Arguments :=
  { a with options := (name, value) :: a.options }

def Arguments.addFlag (a : Arguments) (name : String) : Arguments :=
  { a with flags := name :: a.flags }

def Arguments.addPositional (a : Arguments) (value : String) : Arguments :=
  { a with positional := value :: a.positional }

def splitOption? (word : String) : Option (String × Option String) :=
  match word.toList with
  | '-' :: '-' :: cs =>
    match Text.cut? ['='] cs with
    | some (name, value) => some (String.ofList name, some (String.ofList value))
    | none => some (String.ofList cs, none)
  | ['-', 'i'] => some ("input", none)
  | '-' :: 'i' :: '=' :: value => some ("input", some (String.ofList value))
  | '-' :: 'i' :: value => some ("input", some (String.ofList value))
  | _ => none

def isOption (word : String) : Bool :=
  match word.toList with
  | '-' :: _ :: _ => true
  | _ => false

/-- Sorts out the words behind the name of a command that has some options and flags. -/
def sortWords (options flags : List String) : List String → Option Arguments
  | [] => some {}
  | "--" :: words => some { positional := words }
  | word :: words =>
    if !isOption word then (sortWords options flags words).map (·.addPositional word)
    else do
      let (name, value) ← splitOption? word
      match value with
      | some value =>
        if options.contains name then (sortWords options flags words).map (·.addOption name value)
        else none
      | none =>
        if flags.contains name then (sortWords options flags words).map (·.addFlag name)
        else if !options.contains name then none
        else
          match words with
          | [] => none
          | value :: words =>
            if isOption value then none
            else (sortWords options flags words).map (·.addOption name value)

def Arguments.option? (a : Arguments) (name : String) : Option String :=
  a.options.lookup name

def Arguments.optionValues (a : Arguments) (name : String) : List String :=
  (a.options.filter fun o => o.1 == name).map Prod.snd

/-- The command that the words of a command line ask for, if they are well-formed. -/
def read? (words : List String) : Option Command :=
  match words with
  | "translate" :: words => do
    let a ← sortWords ["input", "var"] ["lenient", "json"] words
    match a.positional with
    | [template] =>
      some (translate template (a.option? "input") (a.optionValues "var")
        (a.flags.contains "lenient") (a.flags.contains "json"))
    | _ => none
  | "temporal" :: words => do
    let a ← sortWords ["at"] [] words
    match a.positional with
    | [expression] => some (temporal expression (a.option? "at"))
    | _ => none
  | "math" :: words => do
    let a ← sortWords [] [] words
    match a.positional with
    | [expression] => some (math expression)
    | _ => none
  | "compound" :: words => do
    let a ← sortWords ["input"] ["validate"] words
    match a.positional with
    | [template] => some (compound template (a.option? "input") (a.flags.contains "validate"))
    | _ => none
  | _ => none

def usage : String :=
  "Usage: mustache translate|temporal|math|compound ..."

def runWords (k : Clock) (environment : String → Option String) (stdin : String)
    (words : List String) : Outcome :=
  match read? words with
  | some c => c.run k environment stdin
  | none => .refused 2 [usage]

end Command

end Placeholder
