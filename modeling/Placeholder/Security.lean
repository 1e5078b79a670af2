import Placeholder.Failure

/-!
# Access policies

A policy says which kinds of models may be read, which attributes are hidden and how deep a path may
go. An empty list of models admits all of them. Hidden attributes are looked for in the first
segment of a path alone.
-/

namespace Placeholder

/-- The rules that a guarded data source asks before it answers. -/
structure Policy where
  allowed : List String := []
  denied : List String := []
  maxDepth : Nat := 10
  deriving DecidableEq, Repr

/-- The last part of a class name: `App\Models\User` and `app::User` are both `User`. -/
def shortName (name : String) : String :=
  String.ofList (Text.afterLast "::".toList (Text.afterLast ['\\'] name.toList))

namespace Policy

def credentials : List String :=
  ["password", "remember_token", "api_token", "secret"]

def recommended : Policy :=
  { denied := credentials }

def admits (p : Policy) (className : String) : Bool :=
  p.allowed.isEmpty || p.allowed.contains className || p.allowed.contains (shortName className)

def checkSource (p : Policy) (className : String) : Except SecurityError Unit :=
  if p.admits className then .ok () else .error (.modelNotAllowed className p.allowed)

def isDenied (p : Policy) (name : String) : Bool :=
  p.denied.contains name

def isTooDeep (p : Policy) (depth : Nat) : Bool :=
  p.maxDepth < depth

/-- Refuses a path that starts at a hidden attribute, then one that goes too deep. -/
def checkPath (p : Policy) (path : String) : Except SecurityError Unit :=
  let segments := Text.splitString '.' path
  if p.isDenied (segments.headD "") then .error (.restrictedPath path)
  else if p.isTooDeep segments.length then .error (.depthExceeded path p.maxDepth)
  else .ok ()

end Policy

end Placeholder
