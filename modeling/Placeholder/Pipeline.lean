import Placeholder.Resolver.Collection
import Placeholder.Resolver.Function
import Placeholder.Resolver.Paths
import Placeholder.Resolver.Temporal

/-!
# Pipelines

Resolvers in the order in which they are asked: by descending priority, and in the order of their
registration where priorities are equal. The first resolver that takes a token gives the result,
even when that is `null` or a failure. A plan collects what a pipeline is made of.
-/

namespace Placeholder

structure Pipeline where
  resolvers : List Resolver

def Resolver.defaults (k : Clock) : List Resolver :=
  [temporal k, nullCoalesce, contextVariable, dynamic, collection, relation, model, table]

namespace Pipeline

def ofList (rs : List Resolver) : Pipeline :=
  ⟨rs.mergeSort fun a b => b.priority ≤ a.priority⟩

def without (rs : List Resolver) (excluded : List String) : Pipeline :=
  ofList (rs.filter fun r => !excluded.contains r.name)

def add (p : Pipeline) (r : Resolver) : Pipeline :=
  ofList (p.resolvers ++ [r])

def names (p : Pipeline) : List String :=
  p.resolvers.map Resolver.name

def resolverFor? (p : Pipeline) (t : Token) (c : Context) : Option Resolver :=
  p.resolvers.find? fun r => r.supports t c

def canResolve (p : Pipeline) (t : Token) (c : Context) : Bool :=
  (p.resolverFor? t c).isSome

def resolve (p : Pipeline) (t : Token) (c : Context) : Except Failure Value :=
  match p.resolverFor? t c with
  | some r => r.resolve t c
  | none => .error (.resolution (.unresolvable t.raw t.kind.name))

/-- What a pipeline is made of: the ordinary resolvers or none of them, those that are added in the
order of their registration, and the names of the resolvers that are left out. -/
structure Plan where
  added : List Resolver := []
  hasDefaults : Bool := true
  excluded : List String := []

namespace Plan

def withDefaults (plan : Plan) : Plan :=
  { plan with hasDefaults := true }

def withoutDefaults (plan : Plan) : Plan :=
  { plan with hasDefaults := false }

/-- Leaves out the resolvers of these names too, ordinary and added ones. -/
def exclude (plan : Plan) (names : List String) : Plan :=
  { plan with excluded := plan.excluded ++ names }

def add (plan : Plan) (r : Resolver) : Plan :=
  { plan with added := plan.added ++ [r] }

/-- The resolvers in the order of their registration, the ordinary ones first. -/
def supplied (plan : Plan) (k : Clock) : List Resolver :=
  (if plan.hasDefaults then Resolver.defaults k else []) ++ plan.added

def build (plan : Plan) (k : Clock) : Pipeline :=
  .without (plan.supplied k) plan.excluded

end Plan

end Pipeline

end Placeholder
