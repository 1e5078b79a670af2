import Placeholder.Security
import Placeholder.Value

/-!
# Data sources

A source answers look-ups along paths written with dots. Plain data and host objects answer every
path; a model is guarded by a policy that is asked first. Walks over the raw structure bypass `get`,
so they ask `check` themselves.
-/

namespace Placeholder

structure Source where
  kind : String
  keys : List String
  raw : Value
  get : String → Except Failure Value
  check : String → Except Failure Unit

namespace Source

def has (s : Source) (path : String) : Bool :=
  match s.get path with
  | .ok v => !v.isNull
  | .error _ => false

def ofValue (kind : String) (v : Value) : Source where
  kind := kind
  keys := v.keys
  raw := v
  get := fun path => .ok (v.lookupDotted path)
  check := fun _ => .ok ()

def ofData (v : Value) : Source :=
  ofValue "array" v

def ofHost (h : HostObject Value) : Source :=
  ofValue "object" (.host h)

end Source

/-- A model: named attributes and the relations that are already loaded. -/
structure Model where
  identity : Nat
  className : String
  attributes : Entries Value
  relations : Entries Value

namespace Model

def name (m : Model) : String :=
  shortName m.className

/-- The model as a host object: attributes are its fields, and relations are found last. -/
def toHost (m : Model) : HostObject Value where
  identity := m.identity
  typeName := m.name
  field := m.attributes.get?
  catchAll := m.relations.get?
  fieldNames := m.attributes.keys ++ m.relations.keys

/-- What the policy says about a path of the model: first its class, then the path. -/
def check (m : Model) (policy : Policy) (path : String) : Except Failure Unit := do
  (policy.checkSource m.className).mapError Failure.security
  (policy.checkPath path).mapError Failure.security

def source (m : Model) (policy : Policy) : Source where
  kind := m.className
  keys := m.toHost.fieldNames
  raw := .host m.toHost
  get := fun path => do
    m.check policy path
    .ok ((Value.host m.toHost).lookupDotted path)
  check := m.check policy

end Model

end Placeholder
