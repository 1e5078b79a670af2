import Placeholder.Formatter.Dates
import Placeholder.Formatter.Numbers
import Placeholder.Formatter.Texts

/-!
# Registered formatters

The names of formatters are a closed list: a formatter with any other name is refused, so that a
template cannot reach arbitrary code of the host.
-/

namespace Placeholder

namespace Formatter

def builtIn : List Formatter :=
  dates ++ numbers ++ texts

def allowedNames : List String :=
  ["toTimeString", "toDateString", "toDateTime", "toUnixTime", "toIso8601", "formatDate",
    "toInt", "toFloat", "toCents", "fromCents", "round", "floor", "ceil", "number", "percent",
    "abs", "uppercase", "lowercase", "trim", "substr", "replace", "concat", "slug", "camel",
    "snake", "title"]

def isAllowed (name : String) : Bool :=
  allowedNames.contains name

end Formatter

abbrev Formatters := Entries Formatter

namespace Formatters

def unknown (name : String) : FormatterError :=
  ⟨name, "null",
    if Formatter.isAllowed name then .notRegistered else .notAllowed Formatter.allowedNames⟩

def builtIn : Formatters :=
  Entries.ofList (Formatter.builtIn.map fun f => (f.name, f))

def register (fs : Formatters) (f : Formatter) : Except FormatterError Formatters :=
  if Formatter.isAllowed f.name then .ok (Entries.insert f.name f fs) else .error (unknown f.name)

def find (fs : Formatters) (name : String) : Except FormatterError Formatter :=
  match Entries.get? fs name with
  | some f => .ok f
  | none => .error (unknown name)

def apply (fs : Formatters) (name : String) (v : Value) (args : List Value) :
    Except FormatterError Value := do
  let f ← fs.find name
  if f.supports v then
    (f.format v args).mapError fun reason => ⟨name, v.encode, .failed reason⟩
  else .error ⟨name, "null", .unsupportedType v.typeName⟩

end Formatters

end Placeholder
