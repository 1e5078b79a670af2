import Placeholder.Failure
import Placeholder.Value

/-!
# Formatters

A formatter turns a value and its arguments into a value, or says why it cannot. It names the types
of values that it accepts, and supports these values unless it decides for itself. Arguments that are
missing or absent take a default.
-/

namespace Placeholder

structure Formatter where
  name : String
  /-- The types of the values that are accepted; none named means all. -/
  accepts : List String := []
  supports : Value → Bool := fun v => accepts.isEmpty || accepts.contains v.typeName
  format : Value → List Value → Except String Value

namespace Value

/-- A value as a number: numerals are read, truth counts as one, and all else is zero. -/
def toScalar : Value → Number.Scalar
  | int n => .int n
  | float x => .float x
  | bool b => .int (if b then 1 else 0)
  | string s => (Number.readScalar? s.toList).getD (.int 0)
  | _ => .int 0

end Value

def argument? (args : List Value) (i : Nat) : Option Value :=
  args[i]?.filter fun v => !v.isNull

def textArgument (args : List Value) (i : Nat) (default : String) : String :=
  (argument? args i).elim default Value.templateText

def intArgument? (args : List Value) (i : Nat) : Option Int64 :=
  (argument? args i).map fun v => v.toScalar.toInt64

def intArgument (args : List Value) (i : Nat) (default : Int64) : Int64 :=
  (intArgument? args i).getD default

end Placeholder
