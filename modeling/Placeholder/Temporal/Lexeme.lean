import Placeholder.Temporal.TimeRange
import Placeholder.Text.Letter

/-!
# Lexemes of temporal expressions

Operators, parentheses and the texts of conditions, each with its offset. A cron condition reaches up
to the next parenthesis or doubled operator, blanks included; an `nth:` or `last:` condition ends at
a blank as well.
-/

namespace Placeholder.Temporal

inductive Lexeme where
  | and
  | or
  | not
  | opening
  | closing
  | condition (text : List Char)
  deriving DecidableEq, Repr

namespace Lexeme

def text : Lexeme → List Char
  | and => ['&', '&']
  | or => ['|', '|']
  | not => ['!']
  | opening => ['(']
  | closing => [')']
  | condition cs => cs

/-- The text up to the first position at which `stops` holds of what follows, and the rest. -/
def takeUntil (stops : List Char → Bool) : List Char → List Char × List Char
  | [] => ([], [])
  | c :: cs =>
    if stops (c :: cs) then ([], c :: cs)
    else
      let (taken, rest) := takeUntil stops cs
      (c :: taken, rest)

def atBreak : List Char → Bool
  | '&' :: '&' :: _ => true
  | '|' :: '|' :: _ => true
  | '(' :: _ => true
  | ')' :: _ => true
  | _ => false

def atWordBreak (cs : List Char) : Bool :=
  atBreak cs || (cs.head?.any Text.isBlank)

def takeMarked? (cs : List Char) : Option (Lexeme × List Char) :=
  match Text.after? "cron:".toList cs with
  | some spec =>
    let (spec, rest) := takeUntil atBreak spec
    some (condition ("cron:".toList ++ Text.trim spec), rest)
  | none =>
    if Text.startsWith "nth:".toList cs || Text.startsWith "last:".toList cs then
      let (taken, rest) := takeUntil atWordBreak cs
      some (condition taken, rest)
    else none

def takeTimeRange? (cs : List Char) : Option (Lexeme × List Char) :=
  (takeClockPair? cs).map fun (_, _, rest) => (condition (cs.take (cs.length - rest.length)), rest)

def takeIdentifier? (cs : List Char) : Option (Lexeme × List Char) :=
  let (name, rest) := Text.takeName cs
  if name.isEmpty then none else some (condition name, rest)

def takeCondition? (cs : List Char) : Option (Lexeme × List Char) :=
  ((takeMarked? cs).or (takeTimeRange? cs)).or (takeIdentifier? cs)

def take? (cs : List Char) : Option (Lexeme × List Char) :=
  match cs with
  | '&' :: '&' :: rest => some (and, rest)
  | '|' :: '|' :: rest => some (or, rest)
  | '!' :: rest => some (not, rest)
  | '(' :: rest => some (opening, rest)
  | ')' :: rest => some (closing, rest)
  | cs => takeCondition? cs

end Lexeme

structure Located where
  lexeme : Lexeme
  offset : Nat
  deriving DecidableEq, Repr

namespace Lexeme

/-- The lexemes of the rest of a text. The fuel bounds their number. -/
def scanFrom (source : List Char) : Nat → List Char → Except GrammarError (List Located)
  | 0, _ => .ok []
  | fuel + 1, cs =>
    match Text.trimStart Text.isBlank cs with
    | [] => .ok []
    | c :: cs =>
      let offset := source.length - (c :: cs).length
      match take? (c :: cs) with
      | some (lexeme, rest) => (scanFrom source fuel rest).map (⟨lexeme, offset⟩ :: ·)
      | none => .error (.unexpectedCharacter (String.ofList source) c.toString offset)

def scan (cs : List Char) : Except GrammarError (List Located) :=
  scanFrom cs cs.length cs

end Lexeme

end Placeholder.Temporal
