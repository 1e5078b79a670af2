import Placeholder.Resolver

/-!
# The resolver of collections

Positions, `first`, `last` and `*` lead into collections. The walk goes over the raw structure of
the source, after the source has been asked whether the path may be followed. A star collects what
the rest of the path leads to in every element and leaves out the elements where it leads nowhere.
-/

namespace Placeholder

namespace Value

def first (v : Value) : Value :=
  ofOption (v.items?.bind List.head?)

def last (v : Value) : Value :=
  ofOption (v.items?.bind List.getLast?)

def position (segment : String) : Int64 :=
  ((Number.Numeral.scan? (Text.trim segment.toList)).map fun n => Number.truncate n.toFloat).getD 0

def atPosition (v : Value) (index : Int64) : Value :=
  match v with
  | array items => if index < 0 then null else ofOption items[index.toInt.toNat]?
  | object entries => ofOption (Entries.get? entries (Text.intText index.toInt))
  | host h => ofOption (h.keyed (Text.intText index.toInt))
  | _ => null

/-- What the rest of a path leads to in the elements, as far as it leads somewhere. -/
def eachElement (v : Value) (rest : List String) : Value :=
  array (((v.items?.getD []).map fun item => item.lookupPath rest).filter fun w => !w.isNull)

def collectionStep (v : Value) (segment : String) : Value :=
  if segment = "first" then v.first
  else if segment = "last" then v.last
  else if Number.isNumeral segment.toList then v.atPosition (position segment)
  else v.lookup segment

def collectionWalk : Value → List String → Value
  | v, [] => v
  | null, _ => null
  | v, segment :: rest =>
    if segment = "*" then v.eachElement rest else collectionWalk (v.collectionStep segment) rest

end Value

def Resolver.collection : Resolver :=
  ofKinds "collection" 40 [.collection] fun t c =>
    if !c.expects t then .ok .null
    else do
      c.source.check (Text.join "." t.fieldPath)
      .ok (c.source.raw.collectionWalk t.fieldPath)

end Placeholder
