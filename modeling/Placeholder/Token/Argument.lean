import Placeholder.Number.Numeral
import Placeholder.Text.Casing
import Placeholder.Text.Letter
import Placeholder.Text.Pieces
import Placeholder.Value

/-!
# Paths and arguments

A path is cut at its dots, except inside square brackets. Arguments are cut at commas, except inside
quotes and parentheses; quoted text, numbers, booleans and `null` are literals, and all else refers
to data.
-/

namespace Placeholder

namespace Path

def prepend (c : Char) : List (List Char) → List (List Char)
  | [] => [[c]]
  | piece :: pieces => (c :: piece) :: pieces

def nextDepth (depth : Nat) (c : Char) : Nat :=
  if c = '[' then depth + 1 else if c = ']' then depth - 1 else depth

def pieces (depth : Nat) : List Char → List (List Char)
  | [] => [[]]
  | c :: cs =>
    if c = '.' ∧ depth = 0 then [] :: pieces depth cs
    else prepend c (pieces (nextDepth depth c) cs)

def segments (cs : List Char) : List String :=
  (pieces 0 cs).map fun piece => String.ofList (Text.trim piece)

end Path

namespace Argument

/-- The quote that is open after a character: a quote opens or closes unless a backslash stands
before it, and inside one kind of quote the other kind is text. -/
def nextQuote (quote : Option Char) (previous : Option Char) (c : Char) : Option Char :=
  if (c = '"' ∨ c = '\'') ∧ previous ≠ some '\\' then
    match quote with
    | none => some c
    | some q => if q = c then none else some q
  else quote

def nextDepth (depth : Int) (c : Char) : Int :=
  if c = '(' then depth + 1 else if c = ')' then depth - 1 else depth

def pieces (depth : Int) (quote previous : Option Char) : List Char → List (List Char)
  | [] => [[]]
  | c :: cs =>
    let quote := nextQuote quote previous c
    let depth := if quote.isNone then nextDepth depth c else depth
    if c = ',' ∧ depth = 0 ∧ quote.isNone then [] :: pieces depth quote (some c) cs
    else Path.prepend c (pieces depth quote (some c) cs)

def dropEmptyLast : List (List Char) → List (List Char)
  | [] => []
  | [piece] => if piece.isEmpty then [] else [piece]
  | piece :: next :: rest => piece :: dropEmptyLast (next :: rest)

def split (cs : List Char) : List (List Char) :=
  dropEmptyLast ((pieces 0 none none cs).map Text.trim)

def unquote? (cs : List Char) : Option (List Char) :=
  match cs with
  | q :: c :: rest =>
    if (q = '"' ∨ q = '\'') ∧ (c :: rest).getLast? = some q then some (c :: rest).dropLast else none
  | _ => none

def keyword? (cs : List Char) : Option Value :=
  let lowered := Text.lowerAscii cs
  if lowered = "true".toList then some (.bool true)
  else if lowered = "false".toList then some (.bool false)
  else if lowered = "null".toList then some .null
  else none

def isReference (cs : List Char) : Bool :=
  (unquote? cs).isNone && !Number.isNumeral cs && (keyword? cs).isNone

/-- The value of a literal; a reference stays its own text. -/
def decode (cs : List Char) : Value :=
  match unquote? cs with
  | some text => .string (String.ofList text)
  | none =>
    match Number.readScalar? cs with
    | some n => Value.ofScalar n
    | none => (keyword? cs).getD (.string (String.ofList cs))

def decodeAll (cs : List Char) : List Value :=
  (split cs).map decode

def referencePositions (cs : List Char) : List Nat :=
  ((split cs).zipIdx.filter fun arg => isReference arg.1).map Prod.snd

end Argument

end Placeholder
