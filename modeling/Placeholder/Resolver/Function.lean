import Placeholder.Formatter.Registry
import Placeholder.Resolver
import Placeholder.Text.Quoted
import Placeholder.Token.Argument

/-!
# The resolver of calls

A call names a function of the host or, if there is none of that name, a formatter, which takes its
first argument as the value. Arguments that refer to data are looked up before the call.
-/

namespace Placeholder

/-- A function of the host; it gives a value or the reason why there is none. -/
abbrev HostFunction := List Value → Except String Value

abbrev HostFunctions := Entries HostFunction

def HostFunctions.describe (fs : HostFunctions) : String :=
  Text.quotedList (Entries.keys fs)

namespace Context

/-- What an argument refers to: a variable behind `$`, and otherwise the whole path or, if that
leads nowhere, the path without its head. -/
def reference (c : Context) (text : String) : Except Failure Value :=
  match text.toList with
  | '$' :: name => .ok (c.variableOrNull (String.ofList name))
  | cs => do
    let v ← c.get text
    if !v.isNull then .ok v
    else
      match Path.segments cs with
      | _ :: segment :: rest => c.follow (segment :: rest)
      | _ => .ok .null

end Context

namespace Token

def referencePositions (t : Token) : List Nat :=
  (Text.splitOn ',' ((t.meta? "reference_args").getD "").toList).filterMap
    (Text.readNat? UInt64.size)

def lookUpArgument (c : Context) (args : List Value) (i : Nat) : Except Failure (List Value) :=
  match args[i]? with
  | some (.string text) => (c.reference text).map fun v => args.set i v
  | _ => .ok args

def arguments (t : Token) (c : Context) : Except Failure (List Value) :=
  t.referencePositions.foldlM (lookUpArgument c) t.args

end Token

def Resolver.function (functions : HostFunctions) (formatters : Formatters) : Resolver :=
  ofKinds "function" 80 [.function] fun t c => do
    let name := t.function.getD ""
    let args ← t.arguments c
    match functions.get? name with
    | some f => (f args).mapError fun reason => .resolution (.forToken t.raw reason)
    | none =>
      if Formatter.isAllowed name then
        (formatters.apply name (args.headD .null) args.tail).mapError Failure.formatter
      else .error (.security (.unregisteredFunction name))

end Placeholder
