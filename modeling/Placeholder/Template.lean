import Placeholder.Failure
import Placeholder.Token.Classify

/-!
# Templates

A placeholder is a pair of double braces around characters that are no braces. `scan` cuts a text
into its placeholders and the characters between them; parsing, extraction and substitution read
that list. A template is refused when its double braces do not balance, when a placeholder is blank
or when one opens inside another.
-/

namespace Placeholder.Template

inductive Piece where
  | char (c : Char)
  | placeholder (content : List Char)
  deriving DecidableEq, Repr

/-- The content of a placeholder whose opening braces have been read, and the rest. -/
def takeContent? : List Char → Option (List Char × List Char)
  | [] => none
  | '\x7d' :: rest =>
    match rest with
    | '\x7d' :: rest => some ([], rest)
    | _ => none
  | '\x7b' :: _ => none
  | c :: cs => (takeContent? cs).map fun (content, rest) => (c :: content, rest)

def takePlaceholder? : List Char → Option (List Char × List Char)
  | '\x7b' :: '\x7b' :: cs => (takeContent? cs).filter fun (content, _) => !content.isEmpty
  | _ => none

/-- The pieces of a text, with `fuel` bounding its length. -/
def scanFrom : Nat → List Char → List Piece
  | 0, _ => []
  | _ + 1, [] => []
  | fuel + 1, c :: cs =>
    match takePlaceholder? (c :: cs) with
    | some (content, rest) => .placeholder content :: scanFrom fuel rest
    | none => .char c :: scanFrom fuel cs

def scan (cs : List Char) : List Piece :=
  scanFrom cs.length cs

def contents (cs : List Char) : List (List Char) :=
  (scan cs).filterMap fun
    | .placeholder content => some content
    | .char _ => none

def hasPlaceholders (template : String) : Bool :=
  !(contents template.toList).isEmpty

def embrace (content : List Char) : List Char :=
  '\x7b' :: '\x7b' :: content ++ ['\x7d', '\x7d']

def extract (template : String) : List String :=
  (contents template.toList).map fun content => String.ofList (embrace content)

def substitutePiece (replacement : String → Option String) : Piece → List Char
  | .char c => [c]
  | .placeholder content =>
    match replacement (String.ofList (Text.trim content)) with
    | some text => text.toList
    | none => embrace content

/-- Replaces each placeholder by the text for its content; one without a text stays as written. -/
def substitute (template : String) (replacement : String → Option String) : String :=
  String.ofList ((scan template.toList).flatMap (substitutePiece replacement))

/-- How often a character stands twice in a row, where no character is counted in two pairs. -/
def countPairs (b : Char) : List Char → Nat
  | x :: y :: rest => if x = b ∧ y = b then countPairs b rest + 1 else countPairs b (y :: rest)
  | _ => 0

/-- The offset in bytes of the last place where a character stands twice in a row. -/
def lastPair? (b : Char) (offset : Nat) : List Char → Option Nat
  | x :: y :: rest =>
    match lastPair? b (offset + x.utf8Size) (y :: rest) with
    | some position => some position
    | none => if x = b ∧ y = b then some offset else none
  | _ => none

/-- The offset in bytes of the first place from where a text satisfies a condition. -/
def findOffset? (holds : List Char → Bool) (offset : Nat) : List Char → Option Nat
  | [] => none
  | c :: cs => if holds (c :: cs) then some offset else findOffset? holds (offset + c.utf8Size) cs

def opensBlank : List Char → Bool
  | '\x7b' :: '\x7b' :: cs =>
    Text.startsWith ['\x7d', '\x7d'] (Text.trimStart Text.isBlank cs)
  | _ => false

/-- Whether a text starts with double braces inside which others open before any closing brace. -/
def opensNested : List Char → Bool
  | '\x7b' :: '\x7b' :: cs => 0 < countPairs '\x7b' (cs.takeWhile (· != '\x7d'))
  | _ => false

/-- Checks the braces: first their balance, then blank placeholders, then nested ones. -/
def check (template : String) : Except GrammarError Unit :=
  let cs := template.toList
  let opens := countPairs '\x7b' cs
  let closes := countPairs '\x7d' cs
  if opens ≠ closes then
    let b := if closes < opens then '\x7b' else '\x7d'
    .error (.unclosedPlaceholder template ((lastPair? b 0 cs).getD 0))
  else
    match findOffset? opensBlank 0 cs with
    | some position => .error (.emptyPlaceholder template position)
    | none =>
      match findOffset? opensNested 0 cs with
      | some position => .error (.nestedPlaceholder template position)
      | none => .ok ()

def parse (template : String) : Except GrammarError (List Token) := do
  check template
  .ok ((((contents template.toList).map Text.trim).filter fun c => !c.isEmpty).map Token.classify)

end Placeholder.Template
