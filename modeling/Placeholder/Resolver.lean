import Placeholder.Context
import Placeholder.Token

/-!
# Resolvers

A resolver turns tokens of some kinds into values. Resolvers are tried in the order of their
priorities, and the first that takes a token decides about it.
-/

namespace Placeholder

structure Resolver where
  name : String
  priority : Int := 50
  supports : Token → Context → Bool
  resolve : Token → Context → Except Failure Value

namespace Resolver

def ofKinds (name : String) (priority : Int) (kinds : List TokenKind)
    (resolve : Token → Context → Except Failure Value) : Resolver where
  name := name
  priority := priority
  supports := fun t _ => kinds.contains t.kind
  resolve := resolve

end Resolver

namespace Context

def follow (c : Context) (path : List String) : Except Failure Value :=
  c.source.get (Text.join "." path)

def expects (c : Context) (t : Token) : Bool :=
  match c.expectedHead with
  | some head => t.head == head
  | none => true

def variableOrNull (c : Context) (name : String) : Value :=
  Value.ofOption (c.bindings.get? name)

end Context

end Placeholder
