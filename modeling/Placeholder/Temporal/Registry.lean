import Placeholder.Temporal.Expression

/-!
# Registered conditions

Conditions under their keywords, the built-in ones among them, and the evaluators that are handed to
every expression which the registry creates. Dropping a custom keyword drops the condition behind it
even where the keyword is a built-in name.
-/

namespace Placeholder.Temporal

open Calendar

structure Condition where
  keywords : List String
  holds : Evaluator

/-- Conditions under their keywords, and the evaluators of the host. -/
structure Registry where
  conditions : Entries Condition
  evaluators : Entries Evaluator := []

namespace Registry

def builtIns : Entries Condition :=
  builtInKeywords.filterMap fun name =>
    (builtIn? name).map fun f => (name, ⟨[name], f⟩)

def fresh : Registry :=
  { conditions := builtIns }

def register (r : Registry) (c : Condition) : Registry :=
  { r with conditions := r.conditions.insertAll (c.keywords.map fun k => (k, c)) }

def registerEvaluator (r : Registry) (keyword : String) (f : Evaluator) : Registry :=
  { r with evaluators := r.evaluators.insert keyword f }.register ⟨[keyword], f⟩

def condition? (r : Registry) (keyword : String) : Option Condition :=
  r.conditions.get? keyword

def has (r : Registry) (keyword : String) : Bool :=
  (r.condition? keyword).isSome || r.evaluators.contains keyword

/-- Whether the condition under a keyword holds; an unknown keyword never does. -/
def evaluate (r : Registry) (keyword : String) (t : DateTime) : Bool :=
  (r.condition? keyword).any fun c => c.holds t

def keywords (r : Registry) : List String :=
  r.conditions.keys.mergeSort fun a b => a ≤ b

def customKeywords (r : Registry) : List String :=
  r.evaluators.keys

def remove (r : Registry) (keyword : String) : Registry :=
  ⟨r.conditions.erase keyword, r.evaluators.erase keyword⟩

def clearCustom (r : Registry) : Registry :=
  r.customKeywords.foldl remove r

def expression (r : Registry) (text : String) : Expression :=
  ({ text } : Expression).registerAll r.evaluators

end Registry

end Placeholder.Temporal
