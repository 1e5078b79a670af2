import Placeholder.Arithmetic
import Placeholder.Resolver

/-!
# Resolvers of paths, variables and arithmetic

The head of a path names the model, so that the source is asked for the field path alone; a table
is asked for the whole path.
-/

namespace Placeholder.Resolver

def model : Resolver :=
  ofKinds "model" 20 [.model] fun t c =>
    if !c.expects t || t.fieldPath.isEmpty then .ok .null else c.follow t.fieldPath

/-- `Model.relation.field`, which has at least two segments behind the head. -/
def relation : Resolver :=
  ofKinds "relation" 30 [.relation] fun t c =>
    if !c.expects t || t.fieldPath.length < 2 then .ok .null else c.follow t.fieldPath

def table : Resolver :=
  ofKinds "table" 10 [.table] fun t c =>
    if t.fieldPath.isEmpty then .ok .null else c.follow t.path

/-- `$name`, which is never looked for in the source. -/
def contextVariable : Resolver :=
  ofKinds "variable" 60 [.contextVariable] fun t c =>
    .ok ((t.path.head?).elim .null c.variableOrNull)

/-- A path with a default, which is taken as it is written when the path leads nowhere. -/
def nullCoalesce : Resolver :=
  ofKinds "null_coalesce" 90 [.nullCoalesce] fun t c => do
    let v ← if t.fieldPath.isEmpty then .ok .null else c.follow t.fieldPath
    .ok (if v.isNull then Value.ofOption (t.default.map .string) else v)

/-- The segments from the first one with a `$` on, without that `$`. -/
def indicatorPath (fieldPath : List String) : List String :=
  match fieldPath.dropWhile fun segment => !Token.isIndicator segment with
  | [] => []
  | segment :: rest => String.ofList (segment.toList.drop 1) :: rest

/-- `Model.$indicator`: the indicator leads to the name of the field that is read. -/
def dynamic : Resolver :=
  ofKinds "dynamic" 50 [.dynamic] fun t c =>
    match indicatorPath t.fieldPath with
    | [] => .ok .null
    | path => do
      match ← c.follow path with
      | .null => .ok .null
      | .string field => c.source.get field
      | v =>
        .error (.resolution (.forToken t.raw
          ("Dynamic field indicator must resolve to string, got: " ++ v.typeName)))

def arithmetic : Resolver :=
  ofKinds "math" 70 [.math] fun t _ =>
    match Arithmetic.evaluate ((t.meta? "expression").getD t.raw) with
    | .ok n => .ok (Value.ofScalar n)
    | .error e => .error (.math e)

end Placeholder.Resolver
