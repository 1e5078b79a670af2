import Placeholder.Source

/-!
# Contexts

Everything that a resolver may consult: a source, variables that shadow it, the mode of the
translation and the name that placeholders are expected to start with. Contexts are values; the
`with` functions give changed copies.
-/

namespace Placeholder

structure Context where
  source : Source
  bindings : Entries Value := []
  /-- Whether the first placeholder without a value ends the translation. -/
  strict : Bool := true
  expectedHead : Option String := none
  settings : Entries Value := []

namespace Context

def ofData (data : Value) : Context :=
  { source := Source.ofData data }

def empty : Context :=
  ofData (.object [])

def get (c : Context) (path : String) : Except Failure Value :=
  match c.bindings.get? path with
  | some v => .ok v
  | none => c.source.get path

def has (c : Context) (path : String) : Bool :=
  c.bindings.contains path || c.source.has path

def withVariable (c : Context) (name : String) (v : Value) : Context :=
  { c with bindings := c.bindings.insert name v }

def withSource (c : Context) (s : Source) : Context :=
  { c with source := s }

def withStrict (c : Context) (strict : Bool) : Context :=
  { c with strict := strict }

def withExpectedHead (c : Context) (head : Option String) : Context :=
  { c with expectedHead := head }

def withSettings (c : Context) (entries : List (String × Value)) : Context :=
  { c with settings := c.settings.insertAll entries }

def settingOr (c : Context) (key : String) (default : Value) : Value :=
  (c.settings.get? key).getD default

end Context

end Placeholder
