import Placeholder.Json.Reader

/-!
# Records in JSON

A record is an object with named fields, or an array with the fields in their order. A field may be
missing but not given twice, under none of its names; members of other names are passed over.
-/

namespace Placeholder.Json

def membersOf (members : List (String × Json)) (names : List String) : List Json :=
  (members.filter fun m => names.contains m.1).map Prod.snd

def atMostOne? : List Json → Option (Option Json)
  | [] => some none
  | [j] => some (some j)
  | _ => none

def record? (fields : List (List String)) : Json → Option (List (Option Json))
  | object members => fields.mapM fun names => atMostOne? (membersOf members names)
  | array items =>
    if items.length ≤ fields.length then some ((List.range fields.length).map (items[·]?))
    else none
  | _ => none

def bool? : Json → Option Bool
  | bool b => some b
  | _ => none

def nat64? : Json → Option Nat
  | int n => if 0 ≤ n ∧ n < UInt64.size then some n.toNat else none
  | _ => none

def string? : Json → Option String
  | string s => some s
  | _ => none

def strings? : Json → Option (List String)
  | array items => items.mapM string?
  | _ => none

def field? {α : Type} (decode : Json → Option α) (default : α) : Option Json → Option α
  | none => some default
  | some j => decode j

end Placeholder.Json
