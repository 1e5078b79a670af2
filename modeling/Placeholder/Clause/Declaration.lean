import Placeholder.Text.Letter
import Placeholder.Text.Pieces

/-!
# Declarations

A declaration binds a name to a placeholder and may end in a condition. A block of declarations is
searched from the left; text between them is passed over.
-/

namespace Placeholder.Clause

/-- A name, its placeholder with the braces, and the condition on its value. -/
structure Declaration where
  name : String
  expression : String
  condition : Option String
  deriving DecidableEq, Repr

def Declaration.reference (d : Declaration) : String :=
  "\x7b" ++ d.name ++ "\x7d"

/-- The longest run of `p` characters at the start of a text, if there is one, and the rest. -/
def takeRun? (p : Char → Bool) (cs : List Char) : Option (List Char × List Char) :=
  let run := cs.takeWhile p
  if run.isEmpty then none else some (run, cs.dropWhile p)

def takeReference? (cs : List Char) : Option (List Char × List Char) := do
  let (name, rest) ← takeRun? Text.isWord (← Text.after? ['\x7b'] cs)
  some (name, ← Text.after? ['\x7d'] rest)

/-- A placeholder at the start of a text, and the rest. It ends at the first closing braces. -/
def takeExpression? (cs : List Char) : Option (List Char × List Char) := do
  let (content, rest) ← takeRun? (· != '\x7d') (← Text.after? ['\x7b', '\x7b'] cs)
  let rest ← Text.after? ['\x7d', '\x7d'] rest
  some ('\x7b' :: '\x7b' :: content ++ ['\x7d', '\x7d'], rest)

def skipBlank (cs : List Char) : List Char :=
  Text.trimStart Text.isBlank cs

def isOperatorChar (c : Char) : Bool :=
  c == '>' || c == '<' || c == '=' || c == '!'

def isOperandChar (c : Char) : Bool :=
  !Text.isBlank c && c != ','

def afterKeyword? (keyword : String) (cs : List Char) : Option (List Char) :=
  let n := keyword.length
  if cs.length < n then none
  else if (cs.take n).map Char.toUpper = keyword.toList then some (cs.drop n)
  else none

def afterOperand? (cs : List Char) : Option (List Char) :=
  (takeRun? isOperandChar (skipBlank cs)).map Prod.snd

/-- What follows an operator and its operand. Where no operand follows, the last character of a
longer operator is the operand. -/
def afterComparison? (cs : List Char) : Option (List Char) := do
  let (operator, rest) ← takeRun? isOperatorChar cs
  match afterOperand? rest with
  | some rest => some rest
  | none => if operator.length < 2 then none else some rest

/-- What follows white space, the word `AND`, white space and an operand. -/
def afterUpperEnd? (cs : List Char) : Option (List Char) := do
  let (_, rest) ← takeRun? Text.isBlank cs
  let (_, rest) ← takeRun? Text.isBlank (← afterKeyword? "AND" rest)
  afterOperand? rest

def afterCondition? (cs : List Char) : Option (List Char) := do
  let cs := skipBlank cs
  let rest ← (afterComparison? cs).or ((afterKeyword? "BETWEEN" cs).bind afterOperand?)
  some ((afterUpperEnd? rest).getD rest)

/-- The condition at the start of a text without the white space around it, and the rest. -/
def takeCondition (cs : List Char) : Option (List Char) × List Char :=
  match afterCondition? cs with
  | some rest => (some (Text.trim (cs.take (cs.length - rest.length))), rest)
  | none => (none, cs)

def takeDeclaration? (cs : List Char) : Option (Declaration × List Char) := do
  let (name, rest) ← takeReference? cs
  let rest ← Text.after? ['=', '>'] (skipBlank rest)
  let (expression, rest) ← takeExpression? (skipBlank rest)
  let (condition, rest) := takeCondition rest
  some (⟨String.ofList name, String.ofList expression, condition.map String.ofList⟩, rest)

/-- The declarations of a block, with `fuel` bounding its length. -/
def readDeclarationsFrom : Nat → List Char → List Declaration
  | 0, _ => []
  | _ + 1, [] => []
  | fuel + 1, c :: cs =>
    match takeDeclaration? (c :: cs) with
    | some (d, rest) => d :: readDeclarationsFrom fuel rest
    | none => readDeclarationsFrom fuel cs

def readDeclarations (cs : List Char) : List Declaration :=
  readDeclarationsFrom cs.length cs

end Placeholder.Clause
