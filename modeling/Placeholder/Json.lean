import Placeholder.Number.Shortest
import Placeholder.Entries

/-!
# JSON trees and their text

The compact text has no white space; the indented text puts every item and member on a line of its
own. Floats are written with the fewest digits that read back, with a point or an exponent so that
they stay floats. Only quotes, backslashes and control characters are escaped in strings.
-/

namespace Placeholder

/-- A JSON tree. Members of an object are kept as they stand, repeated names included. -/
inductive Json where
  | null
  | bool (b : Bool)
  | int (n : Int)
  | float (x : Float)
  | string (s : String)
  | array (items : List Json)
  | object (members : List (String × Json))
  /-- Well-formed text without a value: a number beyond all floats, or half a surrogate pair. -/
  | unreadable

namespace Json

def hexDigit (n : Nat) : Char :=
  Nat.digitChar n

def escape (c : Char) : List Char :=
  if c = '"' then ['\\', '"']
  else if c = '\\' then ['\\', '\\']
  else if c = '\x08' then ['\\', 'b']
  else if c = '\t' then ['\\', 't']
  else if c = '\n' then ['\\', 'n']
  else if c = '\x0c' then ['\\', 'f']
  else if c = '\r' then ['\\', 'r']
  else if c.toNat < 0x20 then
    ['\\', 'u', '0', '0', hexDigit (c.toNat / 16), hexDigit (c.toNat % 16)]
  else [c]

def writeString (s : String) : List Char :=
  '"' :: s.toList.flatMap escape ++ ['"']

/-- The digits of a decimal with a point behind the first one and the exponent that remains. -/
def scientific (digits : List Char) (exponent : Int) : List Char :=
  let mantissa :=
    match digits with
    | [] => []
    | [d] => [d]
    | d :: ds => d :: '.' :: ds
  mantissa ++ 'e' :: (if exponent < 0 then '-' else '+') :: Text.natDigits exponent.natAbs

/-- A positive decimal: positional from `10^-5` to below `10^16`, otherwise with an exponent. -/
def writeDecimal (d : Number.Decimal) : List Char :=
  let digits := Text.natDigits d.digits
  let leading : Int := d.exponent + digits.length - 1
  if -5 ≤ leading ∧ leading ≤ 15 then
    d.plain ++ if 0 ≤ d.exponent then ['.', '0'] else []
  else scientific digits leading

/-- A float; what is not finite has no JSON text and becomes `null`. -/
def writeFloat (x : Float) : List Char :=
  match Number.binary? x with
  | none => "null".toList
  | some b =>
    let sign := if b.negative then ['-'] else []
    if b.significand = 0 then sign ++ ['0', '.', '0']
    else sign ++ writeDecimal (Number.shortest b .even)

mutual

def write : Json → List Char
  | null => "null".toList
  | bool b => if b then "true".toList else "false".toList
  | int n => Text.intDigits n
  | float x => writeFloat x
  | string s => writeString s
  | array items => '[' :: writeItems items ++ [']']
  | object members => '{' :: writeMembers members ++ ['}']
  | unreadable => "null".toList

def writeItems : List Json → List Char
  | [] => []
  | [j] => write j
  | j :: k :: rest => write j ++ ',' :: writeItems (k :: rest)

def writeMembers : List (String × Json) → List Char
  | [] => []
  | [(name, j)] => writeString name ++ ':' :: write j
  | (name, j) :: k :: rest => writeString name ++ ':' :: write j ++ ',' :: writeMembers (k :: rest)

end

def text (j : Json) : String :=
  String.ofList j.write

def newLine (level : Nat) : List Char :=
  '\n' :: List.replicate (2 * level) ' '

mutual

/-- The indented text of a tree that stands `level` levels deep. -/
def writeIndented (level : Nat) : Json → List Char
  | array [] => ['[', ']']
  | array (j :: rest) =>
    '[' :: newLine (level + 1) ++ writeIndented (level + 1) j ++
      writeIndentedItems (level + 1) rest ++ newLine level ++ [']']
  | object [] => ['{', '}']
  | object ((name, j) :: rest) =>
    '{' :: newLine (level + 1) ++ writeString name ++ ':' :: ' ' :: writeIndented (level + 1) j ++
      writeIndentedMembers (level + 1) rest ++ newLine level ++ ['}']
  | null => write null
  | bool b => write (bool b)
  | int n => write (int n)
  | float x => write (float x)
  | string s => write (string s)
  | unreadable => write unreadable

def writeIndentedItems (level : Nat) : List Json → List Char
  | [] => []
  | j :: rest => ',' :: newLine level ++ writeIndented level j ++ writeIndentedItems level rest

def writeIndentedMembers (level : Nat) : List (String × Json) → List Char
  | [] => []
  | (name, j) :: rest =>
    ',' :: newLine level ++ writeString name ++ ':' :: ' ' :: writeIndented level j ++
      writeIndentedMembers level rest

end

def indentedText (j : Json) : String :=
  String.ofList (j.writeIndented 0)

end Json

end Placeholder
