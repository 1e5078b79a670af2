import Placeholder.Json
import Placeholder.Number.Numeral

/-!
# Reading JSON

The text is cut into tokens, and the tokens are gathered into a tree. `parse?` accepts the grammar
alone; `read?` also requires that every number and string denotes something and that nothing is
nested more than 127 levels deep.
-/

namespace Placeholder.Json

inductive Token where
  | openArray | closeArray | openObject | closeObject | comma | colon
  | null
  | bool (b : Bool)
  | number (value : Option Json)
  | string (value : Option String)

/-- A character of a string before surrogate pairs are joined. -/
inductive Unit16 where
  | plain (c : Char)
  | escaped (n : Nat)

def hexValue? (c : Char) : Option Nat :=
  if c.isDigit then some (c.toNat - '0'.toNat)
  else if 'a' ≤ c ∧ c ≤ 'f' then some (c.toNat - 'a'.toNat + 10)
  else if 'A' ≤ c ∧ c ≤ 'F' then some (c.toNat - 'A'.toNat + 10)
  else none

def hexNumber? (a b c d : Char) : Option Nat := do
  let a ← hexValue? a
  let b ← hexValue? b
  let c ← hexValue? c
  let d ← hexValue? d
  some (((a * 16 + b) * 16 + c) * 16 + d)

def unescape? (c : Char) : Option Char :=
  match c with
  | '"' => some '"'
  | '\\' => some '\\'
  | '/' => some '/'
  | 'b' => some '\x08'
  | 'f' => some '\x0c'
  | 'n' => some '\n'
  | 'r' => some '\r'
  | 't' => some '\t'
  | _ => none

def takeString? : List Char → Option (List Unit16 × List Char)
  | [] => none
  | '"' :: cs => some ([], cs)
  | '\\' :: 'u' :: a :: b :: c :: d :: cs => do
    let n ← hexNumber? a b c d
    let (units, rest) ← takeString? cs
    some (.escaped n :: units, rest)
  | '\\' :: c :: cs => do
    let d ← unescape? c
    let (units, rest) ← takeString? cs
    some (.plain d :: units, rest)
  | c :: cs =>
    if c.toNat < 0x20 ∨ c = '\\' then none
    else do
      let (units, rest) ← takeString? cs
      some (.plain c :: units, rest)

def isLeading (n : Nat) : Bool :=
  0xD800 ≤ n && n < 0xDC00

def isTrailing (n : Nat) : Bool :=
  0xDC00 ≤ n && n < 0xE000

/-- The characters of a string, with surrogate pairs joined; half a pair denotes nothing. -/
def joinUnits? : List Unit16 → Option (List Char)
  | [] => some []
  | .plain c :: rest => (joinUnits? rest).map (c :: ·)
  | .escaped n :: .escaped m :: rest =>
    if isLeading n then
      if isTrailing m then
        (joinUnits? rest).map (Char.ofNat (0x10000 + (n - 0xD800) * 0x400 + (m - 0xDC00)) :: ·)
      else none
    else if isTrailing n then none
    else (joinUnits? (.escaped m :: rest)).map (Char.ofNat n :: ·)
  | .escaped n :: rest =>
    if isLeading n || isTrailing n then none else (joinUnits? rest).map (Char.ofNat n :: ·)

/-- Appends decimal digits to a number as long as it stays below `2^64`, and gives the digits that
are left. -/
def absorb (s : Nat) : List Char → Nat × List Char
  | [] => (s, [])
  | d :: ds =>
    let t := 10 * s + Text.digitValue d
    if t < UInt64.size then absorb t ds else (s, d :: ds)

/-- Divides a float by `10^e` in steps of at most `10^308`. -/
def divideTens : Nat → Float → Nat → Float
  | 0, x, _ => x
  | steps + 1, x, e =>
    if e ≤ 308 then x / Float.ofScientific 1 false e
    else divideTens steps (x / Float.ofScientific 1 false 308) (e - 308)

/-- The float for `s · 10^e`, found by one multiplication or by divisions; none beyond every
float. -/
def scale? (s : Nat) (e : Int) : Option Float :=
  if e < 0 then some (divideTens 4 (Float.ofNat s) e.natAbs)
  else if s = 0 then some 0.0
  else if 308 < e then none
  else
    let x := Float.ofNat s * Float.ofScientific 1 false e.natAbs
    if Number.isInfinite x then none else some x

/-- The value of a number from its digits before and behind the point and its exponent. -/
def number? (negative : Bool) (whole : List Char) (fraction : Option (List Char))
    (exponent : Option Int) : Option Json :=
  let n := Text.digitsValue whole
  if fraction.isNone && exponent.isNone && !negative && n < UInt64.size then some (.int n)
  else if fraction.isNone && exponent.isNone && negative && 0 < n && (exactInt64 (-n)).isSome then
    some (.int (-n))
  else
    let (s, left) := absorb 0 whole
    let places := fraction.getD []
    let (s, unread) := absorb s places
    let e : Int := left.length - (places.length - unread.length : Nat) + exponent.getD 0
    (scale? s e).map fun x => .float (if negative then -x else x)

def takeExponent? (cs : List Char) : Option (Option Int × List Char) :=
  match cs with
  | [] => some (none, [])
  | c :: rest =>
    if c = 'e' ∨ c = 'E' then
      let (sign, rest) := Number.Numeral.takeSign rest
      let digits := rest.takeWhile Char.isDigit
      if digits.isEmpty then none
      else
        let e : Int := Text.digitsValue digits
        some (some (if sign = some '-' then -e else e), rest.dropWhile Char.isDigit)
    else some (none, cs)

def takePlaces? (cs : List Char) : Option (Option (List Char) × List Char) :=
  match cs with
  | '.' :: rest =>
    let digits := rest.takeWhile Char.isDigit
    if digits.isEmpty then none else some (some digits, rest.dropWhile Char.isDigit)
  | _ => some (none, cs)

/-- A number at the start of a text, and the rest. A leading zero stands alone. -/
def takeNumber? (negative : Bool) (cs : List Char) : Option (Token × List Char) := do
  let whole := cs.takeWhile Char.isDigit
  if whole.isEmpty || (whole.length != 1 && whole.head? == some '0') then none
  else
    let (fraction, cs) ← takePlaces? (cs.dropWhile Char.isDigit)
    let (exponent, cs) ← takeExponent? cs
    some (.number (number? negative whole fraction exponent), cs)

/-- The token at the start of a text that does not start with white space, and the rest. -/
def takeToken? (cs : List Char) : Option (Token × List Char) :=
  match cs with
  | '[' :: cs => some (.openArray, cs)
  | ']' :: cs => some (.closeArray, cs)
  | '{' :: cs => some (.openObject, cs)
  | '}' :: cs => some (.closeObject, cs)
  | ',' :: cs => some (.comma, cs)
  | ':' :: cs => some (.colon, cs)
  | 'n' :: 'u' :: 'l' :: 'l' :: cs => some (.null, cs)
  | 't' :: 'r' :: 'u' :: 'e' :: cs => some (.bool true, cs)
  | 'f' :: 'a' :: 'l' :: 's' :: 'e' :: cs => some (.bool false, cs)
  | '"' :: cs =>
    (takeString? cs).map fun (units, rest) =>
      (.string ((joinUnits? units).map String.ofList), rest)
  | '-' :: cs => takeNumber? true cs
  | cs => takeNumber? false cs

def isSpace (c : Char) : Bool :=
  c == ' ' || c == '\n' || c == '\t' || c == '\r'

/-- The tokens of a text, with `fuel` bounding its length. -/
def tokens? : Nat → List Char → Option (List Token)
  | _, [] => some []
  | 0, _ :: _ => none
  | fuel + 1, c :: cs =>
    if isSpace c then tokens? fuel cs
    else do
      let (token, rest) ← takeToken? (c :: cs)
      let tokens ← tokens? fuel rest
      some (token :: tokens)

mutual

/-- The value at the start of the tokens, and the rest; `fuel` bounds the nesting. -/
def value? : Nat → List Token → Option (Json × List Token)
  | 0, _ => none
  | fuel + 1, token :: tokens =>
    match token with
    | .null => some (.null, tokens)
    | .bool b => some (.bool b, tokens)
    | .number n => some (n.getD .unreadable, tokens)
    | .string s => some ((s.map Json.string).getD .unreadable, tokens)
    | .openArray =>
      match tokens with
      | .closeArray :: tokens => some (.array [], tokens)
      | tokens => (items? fuel tokens).map fun (items, rest) => (.array items, rest)
    | .openObject =>
      match tokens with
      | .closeObject :: tokens => some (.object [], tokens)
      | tokens =>
        (members? fuel tokens).map fun (members, rest) =>
          ((members.map Json.object).getD .unreadable, rest)
    | _ => none
  | _ + 1, [] => none

def items? : Nat → List Token → Option (List Json × List Token)
  | 0, _ => none
  | fuel + 1, tokens => do
    let (item, tokens) ← value? fuel tokens
    match tokens with
    | .comma :: tokens =>
      let (items, rest) ← items? fuel tokens
      some (item :: items, rest)
    | .closeArray :: rest => some ([item], rest)
    | _ => none

/-- One or more members up to the closing brace, and the rest; no members where a name denotes
nothing. -/
def members? : Nat → List Token → Option (Option (List (String × Json)) × List Token)
  | 0, _ => none
  | fuel + 1, .string name :: .colon :: tokens => do
    let (item, tokens) ← value? fuel tokens
    match tokens with
    | .comma :: tokens =>
      let (members, rest) ← members? fuel tokens
      some (name.bind fun name => members.map ((name, item) :: ·), rest)
    | .closeObject :: rest => some (name.map fun name => [(name, item)], rest)
    | _ => none
  | _ + 1, _ => none

end

def parse? (s : String) : Option Json := do
  let cs := s.toList
  let tokens ← tokens? cs.length cs
  let (tree, rest) ← value? (2 * tokens.length + 2) tokens
  if rest.isEmpty then some tree else none

mutual

/-- Whether every part of a tree denotes something and at most `depth` levels are nested. -/
def fits (depth : Nat) : Json → Bool
  | unreadable => false
  | array items =>
    match depth with
    | 0 => false
    | depth + 1 => fitsItems depth items
  | object members =>
    match depth with
    | 0 => false
    | depth + 1 => fitsMembers depth members
  | _ => true

def fitsItems (depth : Nat) : List Json → Bool
  | [] => true
  | j :: rest => fits depth j && fitsItems depth rest

def fitsMembers (depth : Nat) : List (String × Json) → Bool
  | [] => true
  | (_, j) :: rest => fits depth j && fitsMembers depth rest

end

def maxDepth : Nat := 127

def read? (s : String) : Option Json :=
  (parse? s).filter (fits maxDepth)

end Placeholder.Json
