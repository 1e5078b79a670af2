import Placeholder.Clause
import Placeholder.Clause.Reference
import Placeholder.Clause.Requirement
import Placeholder.Pipeline
import Placeholder.Template

/-!
# Resolving clauses

Every declaration gets the value of its placeholder, which must not be `null` and must meet the
condition; the first declaration that fails ends the work. Then the references of the statement are
replaced.
-/

namespace Placeholder.Clause

def notResolved (d : Declaration) (fault : VariableFault) : Failure :=
  .resolution (.variableNotResolved d.name d.expression (some fault))

def Declaration.resolve (d : Declaration) (p : Pipeline) (c : Context) : Except Failure Value := do
  let tokens ← (Template.parse d.expression).mapError Failure.grammar
  match tokens with
  | [] => .error (notResolved d .noPlaceholder)
  | t :: _ =>
    match p.resolve t c with
    | .error (.resolution (.unresolvable raw kind)) =>
      .error (notResolved d (.unresolvable raw kind))
    | .error e => .error e
    | .ok .null => .error (notResolved d .null)
    | .ok v =>
      match d.condition with
      | none => .ok v
      | some condition => do
        (require d.name v condition d.expression).mapError Failure.resolution
        .ok v

def resolveAll (p : Pipeline) (c : Context) : List Declaration → Except Failure (Entries Value)
  | [] => .ok []
  | d :: ds => do
    let v ← d.resolve p c
    let rest ← resolveAll p c ds
    .ok ((d.name, v) :: rest)

/-- A statement with its references replaced, and the values that went into it. -/
structure Resolution where
  statement : String
  values : Entries Value
  template : String

def Resolution.toJson (r : Resolution) : Json :=
  .object
    [("statement", .string r.statement),
      ("variables", .object (Value.entriesToJson r.values)),
      ("original", .string r.template)]

def resolveDetailed (p : Pipeline) (template : String) (c : Context) :
    Except Failure Resolution := do
  let clause ← (read template).mapError Failure.clause
  let values ← resolveAll p c clause.declarations
  .ok ⟨substitute clause.statement values, values, clause.template⟩

def resolve (p : Pipeline) (template : String) (c : Context) : Except Failure String :=
  (resolveDetailed p template c).map Resolution.statement

/-- Like `resolve`, but without a statement when a condition is not met. -/
def tryResolve (p : Pipeline) (template : String) (c : Context) :
    Except Failure (Option String) :=
  match resolve p template c with
  | .ok statement => .ok (some statement)
  | .error (.resolution (.conditionNotMet _ _ _ _)) => .ok none
  | .error e => .error e

/-- What is wrong with a template as it is written: its form, or references to names that are not
declared. -/
def validate (template : String) : List String :=
  match read template with
  | .error e => [e.message]
  | .ok clause =>
    match undeclared clause.names (usedNames clause.statement) with
    | [] => []
    | names =>
      ["Undeclared variables used in statement: " ++
        Text.join ", " (names.map fun name => "\x7b" ++ name ++ "\x7d")]

end Placeholder.Clause
