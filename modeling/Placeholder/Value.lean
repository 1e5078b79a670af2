import Placeholder.Calendar.DateTime
import Placeholder.Entries
import Placeholder.Number.Numeral
import Placeholder.Number.Shortest
import Placeholder.Text.Casing
import Placeholder.Text.Pieces

/-!
# Values

What a data source holds and a placeholder resolves to. `null` also stands for what is absent: a
look-up that misses yields `null`. Objects keep the order of their keys. A host object is known by
its identity and answers look-ups in four ways, which are tried in a fixed order.
-/

namespace Placeholder

/-- An object of the host program, seen through what it answers to names. -/
structure HostObject (α : Type) where
  identity : Nat
  typeName : String
  field : String → Option α := fun _ => none
  /-- The answer of a method, by the name of the method. -/
  getter : String → Option α := fun _ => none
  keyed : String → Option α := fun _ => none
  catchAll : String → Option α := fun _ => none
  items : Option (List α) := none
  /-- The names that it lists, whether it answers to them or not. -/
  fieldNames : List String := []

inductive Value where
  | null
  | bool (b : Bool)
  | int (n : Int64)
  | float (x : Float)
  | string (s : String)
  | dateTime (t : Calendar.DateTime)
  | array (items : List Value)
  | object (entries : List (String × Value))
  | host (h : HostObject Value)

namespace HostObject

variable {α : Type}

/-- The ways to ask a host object, in the order in which a look-up tries them. -/
inductive Strategy where
  | field | getter | keyed | catchAll
  deriving DecidableEq, Repr

def Strategy.order : List Strategy :=
  [.field, .getter, .keyed, .catchAll]

/-- The name of the getter method for a field: `name` becomes `getName`. -/
def getterName (segment : String) : String :=
  match segment.toList with
  | [] => "get"
  | c :: cs => String.ofList ("get".toList ++ Text.upperChar c ++ cs)

def ask (h : HostObject α) (strategy : Strategy) (segment : String) : Option α :=
  match strategy with
  | .field => h.field segment
  | .getter => h.getter (getterName segment)
  | .keyed => h.keyed segment
  | .catchAll => h.catchAll segment

def find? (h : HostObject α) (segment : String) : Option α :=
  Strategy.order.findSome? fun strategy => h.ask strategy segment

end HostObject

namespace Value

def isNull : Value → Bool
  | null => true
  | _ => false

def ofOption : Option Value → Value
  | some v => v
  | none => null

def asString? : Value → Option String
  | string s => some s
  | _ => none

def asFloat? : Value → Option Float
  | int n => some (Number.ofInt n)
  | float x => some x
  | _ => none

def asInt? : Value → Option Int64
  | int n => some n
  | float x => some (Number.truncate x)
  | _ => none

def ofScalar : Number.Scalar → Value
  | .int n => int n
  | .float x => float x

/-- The name of the type; a host object has one of its own. -/
def typeName : Value → String
  | null => "null"
  | bool _ => "bool"
  | int _ => "int"
  | float _ => "float"
  | string _ => "string"
  | dateTime _ => "datetime"
  | array _ => "array"
  | object _ => "object"
  | host h => h.typeName

/-- What one segment of a path leads to: the entry of an object, the item of an array by its
position, or the first answer of a host object. -/
def lookup (v : Value) (segment : String) : Value :=
  match v with
  | object entries => ofOption (Entries.get? entries segment)
  | array items => ofOption ((Text.readNat? UInt64.size segment.toList).bind (items[·]?))
  | host h => ofOption (h.find? segment)
  | _ => null

/-- What a path leads to; a missing hop yields `null`. -/
def lookupPath (v : Value) (segments : List String) : Value :=
  segments.foldl lookup v

def lookupDotted (v : Value) (path : String) : Value :=
  v.lookupPath (Text.splitString '.' path)

def items? : Value → Option (List Value)
  | array items => some items
  | object entries => some (Entries.values entries)
  | host h => h.items
  | _ => none

/-- The keys at the top of a value; the items of an array are keyed by their positions. -/
def keys : Value → List String
  | object entries => Entries.keys entries
  | array items => (List.range items.length).map Text.natText
  | host h => h.fieldNames
  | _ => []

mutual

/-- The text of a value inside a template: nothing for what is absent or keyed, and the items of
an array one after another. -/
def templateText : Value → String
  | null => ""
  | bool b => if b then "true" else "false"
  | int n => Text.intText n.toInt
  | float x => Number.floatText x
  | string s => s
  | dateTime t => t.text
  | array items => Text.join ", " (templateTexts items)
  | object _ => ""
  | host _ => ""

def templateTexts : List Value → List String
  | [] => []
  | v :: vs => templateText v :: templateTexts vs

end

mutual

/-- Equality without conversions. Objects are equal when they have equal values under the same
keys, in any order; host objects are equal when they are one object. -/
def strictEq : Value → Value → Bool
  | null, null => true
  | bool a, bool b => a == b
  | int a, int b => a == b
  | float a, float b => a == b
  | string a, string b => a == b
  | dateTime a, dateTime b => a == b
  | array a, array b => strictEqItems a b
  | object a, object b => a.length == b.length && strictEqEntries a b
  | host a, host b => a.identity == b.identity
  | _, _ => false

def strictEqItems : List Value → List Value → Bool
  | [], [] => true
  | v :: vs, w :: ws => strictEq v w && strictEqItems vs ws
  | _, _ => false

def strictEqEntries : List (String × Value) → List (String × Value) → Bool
  | [], _ => true
  | (k, v) :: rest, other =>
    (match Entries.get? other k with
      | some w => strictEq v w
      | none => false) && strictEqEntries rest other

end

end Value

end Placeholder
