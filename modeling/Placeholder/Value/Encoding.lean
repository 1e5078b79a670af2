import Placeholder.Json.Reader
import Placeholder.Value

/-!
# Values as JSON

Every value has a JSON tree: date-times become their texts, and a host object becomes an object with
what it answers to the names that it lists. Reading a tree gives the value back, with integers outside
64 bits as floats.
-/

namespace Placeholder.Value

mutual

def toJson : Value → Json
  | null => .null
  | bool b => .bool b
  | int n => .int n.toInt
  | float x => if (Number.binary? x).isSome then .float x else .null
  | string s => .string s
  | dateTime t => .string t.text
  | array items => .array (itemsToJson items)
  | object entries => .object (entriesToJson entries)
  | host ⟨_, _, field, getter, keyed, catchAll, _, fieldNames⟩ =>
    .object <| Entries.ofList <| fieldNames.map fun name =>
      (name,
        ([answerToJson (field name), answerToJson (getter (HostObject.getterName name)),
          answerToJson (keyed name), answerToJson (catchAll name)].findSome? id).getD .null)

def answerToJson : Option Value → Option Json
  | none => none
  | some v => some (toJson v)

def itemsToJson : List Value → List Json
  | [] => []
  | v :: vs => toJson v :: itemsToJson vs

def entriesToJson : List (String × Value) → List (String × Json)
  | [] => []
  | (k, v) :: rest => (k, toJson v) :: entriesToJson rest

end

/-- Every name that a host object lists is looked up like the segment of a path. -/
theorem toJson_host (h : HostObject Value) :
    (host h).toJson =
      .object (Entries.ofList (h.fieldNames.map fun name =>
        (name, (ofOption (h.find? name)).toJson))) := by
  obtain ⟨_, _, field, getter, keyed, catchAll, _, fieldNames⟩ := h
  rw [toJson]
  congr 3
  funext name
  simp only [HostObject.find?, HostObject.Strategy.order, HostObject.ask]
  cases field name <;> cases getter (HostObject.getterName name) <;> cases keyed name <;>
    cases catchAll name <;> rfl

def encode (v : Value) : String :=
  v.toJson.text

mutual

/-- The value of a JSON tree. A repeated name keeps its first place and takes its last value. -/
def ofJson : Json → Value
  | .null => null
  | .bool b => bool b
  | .int n =>
    match exactInt64 n with
    | some n => int n
    | none => float (Float.ofInt n)
  | .float x => float x
  | .string s => string s
  | .array items => array (itemsOfJson items)
  | .object members => object (Entries.ofList (entriesOfJson members))
  | .unreadable => null

def itemsOfJson : List Json → List Value
  | [] => []
  | j :: js => ofJson j :: itemsOfJson js

def entriesOfJson : List (String × Json) → List (String × Value)
  | [] => []
  | (k, j) :: rest => (k, ofJson j) :: entriesOfJson rest

end

def read? (s : String) : Option Value :=
  (Json.read? s).map ofJson

end Placeholder.Value
