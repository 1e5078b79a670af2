import Placeholder.Temporal.Grammar
import Placeholder.Text.Quoted

/-!
# Temporal expressions with evaluators

An expression keeps its tree once it has been read, and predicates of the host for the keywords that
it uses. Registering a predicate discards the tree, which is then read again.
-/

namespace Placeholder.Temporal

open Calendar

/-- An expression with the predicates behind its keywords. -/
structure Expression where
  text : String
  evaluators : Entries Evaluator := []
  tree : Option Tree := none

namespace Expression

def register (e : Expression) (keyword : String) (f : Evaluator) : Expression :=
  { e with evaluators := e.evaluators.insert keyword f, tree := none }

def registerAll (e : Expression) (fs : List (String × Evaluator)) : Expression :=
  fs.foldl (fun e (keyword, f) => e.register keyword f) e

/-- Whether the expression holds at an instant, and the expression with its tree kept. -/
def evaluate (e : Expression) (t : DateTime) : Except Failure Bool × Expression :=
  match e.tree with
  | some tree => (tree.holds e.evaluators t, e)
  | none =>
    match Tree.read e.text with
    | .ok tree => (tree.holds e.evaluators t, { e with tree := some tree })
    | .error error => (.error (.grammar error), e)

def holds (e : Expression) (t : DateTime) : Except Failure Bool :=
  (e.evaluate t).1

def hasEvaluator (e : Expression) (keyword : String) : Bool :=
  e.evaluators.contains keyword

def registeredKeywords (e : Expression) : List String :=
  e.evaluators.keys

def usedConditions (e : Expression) : Except GrammarError (List String) :=
  conditionTexts e.text

def isSelfEvaluating (condition : String) : Bool :=
  let cs := condition.toList
  builtInKeywords.contains condition || Text.startsWith "cron:".toList cs ||
    Text.startsWith "nth:".toList cs || Text.startsWith "last:".toList cs ||
    (cs.contains ':' && cs.contains '-')

def missingEvaluators (e : Expression) : Except GrammarError (List String) := do
  let used ← e.usedConditions
  .ok (used.filter fun c => !isSelfEvaluating c && !e.hasEvaluator c)

/-- A description for diagnostics: the text and the keywords that have predicates. -/
def describe (e : Expression) : String :=
  "TemporalExpression \x7b expression: " ++ Text.quoted e.text ++ ", evaluators: " ++
    Text.quotedList e.registeredKeywords ++ " \x7d"

end Expression

end Placeholder.Temporal
