import Placeholder.Clause.Declaration
import Placeholder.Value.Encoding

/-!
# Local references

A statement refers to declared names in single braces. References are found from the left, and the
text of a value that takes the place of one is not searched again.
-/

namespace Placeholder.Clause

inductive Piece where
  | char (c : Char)
  | reference (name : List Char)
  deriving DecidableEq, Repr

/-- The pieces of a text, with `fuel` bounding its length. -/
def piecesFrom : Nat → List Char → List Piece
  | 0, _ => []
  | _ + 1, [] => []
  | fuel + 1, c :: cs =>
    match takeReference? (c :: cs) with
    | some (name, rest) => .reference name :: piecesFrom fuel rest
    | none => .char c :: piecesFrom fuel cs

def pieces (cs : List Char) : List Piece :=
  piecesFrom cs.length cs

def referenceNames (statement : String) : List (List Char) :=
  (pieces statement.toList).filterMap fun
    | .reference name => some name
    | .char _ => none

/-- The names that a statement refers to, each once, in the order of their first references. -/
def usedNames (statement : String) : List String :=
  ((referenceNames statement).map String.ofList).eraseDups

def undeclared (declared used : List String) : List String :=
  used.filter fun name => !declared.contains name

def hasReferences (statement : String) : Bool :=
  (referenceNames statement).any fun name => name.head?.any fun c => Text.isAlphabetic c || c == '_'

def statementText : Value → String
  | .string s => s
  | .int n => Text.intText n.toInt
  | .float x => Number.floatText x
  | .bool b => if b then "true" else "false"
  | .null => "null"
  | .dateTime t => t.text
  | v => v.encode

def substitutePiece (values : Entries Value) : Piece → List Char
  | .char c => [c]
  | .reference name =>
    match values.get? (String.ofList name) with
    | some v => (statementText v).toList
    | none => '\x7b' :: name ++ ['\x7d']

/-- A statement with the references to known names replaced by the texts of their values. -/
def substitute (statement : String) (values : Entries Value) : String :=
  String.ofList ((pieces statement.toList).flatMap (substitutePiece values))

end Placeholder.Clause
