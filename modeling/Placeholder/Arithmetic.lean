import Placeholder.Failure
import Placeholder.Number.Numeral
import Placeholder.Value

/-!
# Arithmetic

Sums and products of decimal numbers with signs and parentheses:

    expr   := term (('+' | '-') term)*
    term   := factor (('*' | '/') factor)*
    factor := ('-' | '+') factor | '(' expr ')' | number

Values are computed while the text is read, from left to right. Integers stay integers as long as
the exact result is one of 64 bits; otherwise the result is a float.
-/

namespace Placeholder.Arithmetic

open Number (Scalar)

def maxLength : Nat := 500

def maxDepth : Nat := 10

def exactOr (n : Int) (x : Float) : Scalar :=
  match exactInt64 n with
  | some n => .int n
  | none => .float x

def negate : Scalar → Scalar
  | .int a => exactOr (-a.toInt) (-(Number.ofInt a))
  | .float x => .float (-x)

def add : Scalar → Scalar → Scalar
  | .int a, .int b => exactOr (a.toInt + b.toInt) (Number.ofInt a + Number.ofInt b)
  | a, b => .float (a.toFloat + b.toFloat)

def subtract : Scalar → Scalar → Scalar
  | .int a, .int b => exactOr (a.toInt - b.toInt) (Number.ofInt a - Number.ofInt b)
  | a, b => .float (a.toFloat - b.toFloat)

def multiply : Scalar → Scalar → Scalar
  | .int a, .int b => exactOr (a.toInt * b.toInt) (Number.ofInt a * Number.ofInt b)
  | a, b => .float (a.toFloat * b.toFloat)

/-- The quotient; an integer only where the division of integers leaves nothing. -/
def divide : Scalar → Scalar → Scalar
  | .int a, .int b =>
    let quotient := Number.ofInt a / Number.ofInt b
    if b.toInt ≠ 0 ∧ a.toInt % b.toInt = 0 then exactOr (a.toInt / b.toInt) quotient
    else .float quotient
  | a, b => .float (a.toFloat / b.toFloat)

def isZero (a : Scalar) : Bool :=
  a.toFloat == 0.0

abbrev Result := Except MathFault (Scalar × List Char)

def skipBlank (cs : List Char) : List Char :=
  Text.trimStart Text.isBlank cs

/-- The signs at the start of a text, white space around them apart, and the rest. -/
def takeSigns : List Char → List Char × List Char
  | [] => ([], [])
  | c :: cs =>
    if Text.isBlank c then takeSigns cs
    else if c = '-' ∨ c = '+' then
      let (signs, rest) := takeSigns cs
      (c :: signs, rest)
    else ([], c :: cs)

/-- The number behind signs; every minus sign negates it once. -/
def applySigns (signs : List Char) (a : Scalar) : Scalar :=
  signs.foldr (fun sign a => if sign = '-' then negate a else a) a

/-- A number: digits with at most one point. A point alone is zero. The offset of the text from the
end of an expression of `length` characters tells where a number is missing. -/
def number (length : Nat) (cs : List Char) : Result :=
  let whole := cs.takeWhile Char.isDigit
  let (fraction, rest) := Number.Numeral.takeFraction (cs.dropWhile Char.isDigit)
  match fraction with
  | some places =>
    .ok (.float (Number.nearestFloat false (Text.digitsValue (whole ++ places))
      (-(places.length : Int))), rest)
  | none =>
    if whole.isEmpty then
      .error (.invalidOperator s!"expected number at position {length - cs.length}")
    else
      let n := Text.digitsValue whole
      .ok (exactOr n (Number.nearestFloat false n 0), rest)

/-- The products and quotients of further factors; `fuel` bounds their count. -/
def products (factor : List Char → Result) : Nat → Scalar → List Char → Result
  | 0, left, cs => .ok (left, cs)
  | fuel + 1, left, cs =>
    match skipBlank cs with
    | '*' :: rest => do
      let (right, rest) ← factor rest
      products factor fuel (multiply left right) rest
    | '/' :: rest => do
      let (right, rest) ← factor rest
      if isZero right then .error .divisionByZero
      else products factor fuel (divide left right) rest
    | rest => .ok (left, rest)

def term (factor : List Char → Result) (cs : List Char) : Result := do
  let (left, rest) ← factor cs
  products factor rest.length left rest

/-- The sums and differences of further terms; `fuel` bounds their count. -/
def sums (factor : List Char → Result) : Nat → Scalar → List Char → Result
  | 0, left, cs => .ok (left, cs)
  | fuel + 1, left, cs =>
    match skipBlank cs with
    | '+' :: rest => do
      let (right, rest) ← term factor rest
      sums factor fuel (add left right) rest
    | '-' :: rest => do
      let (right, rest) ← term factor rest
      sums factor fuel (subtract left right) rest
    | rest => .ok (left, rest)

/-- An expression whose factors are read by `factor`. -/
def expression (factor : List Char → Result) (cs : List Char) : Result := do
  let (left, rest) ← term factor cs
  sums factor rest.length left rest

def closeParen (cs : List Char) : Except MathFault (List Char) :=
  match skipBlank cs with
  | ')' :: rest => .ok rest
  | _ => .error (.invalidOperator "missing closing parenthesis")

/-- A factor inside which `depth` more parentheses may open. -/
def factor (length : Nat) : Nat → List Char → Result
  | 0, cs =>
    match takeSigns cs with
    | (_, '(' :: _) => .error (.tooDeep maxDepth)
    | (signs, rest) => do
      let (a, rest) ← number length rest
      .ok (applySigns signs a, rest)
  | depth + 1, cs =>
    match takeSigns cs with
    | (signs, '(' :: rest) => do
      let (a, rest) ← expression (factor length depth) rest
      let rest ← closeParen rest
      .ok (applySigns signs a, rest)
    | (signs, rest) => do
      let (a, rest) ← number length rest
      .ok (applySigns signs a, rest)

def isAllowed (c : Char) : Bool :=
  c.isDigit || Text.isAsciiBlank c || c ∈ ['+', '-', '*', '/', '(', ')', '.']

/-- The value of an expression that is not blank, from its first character to its last. -/
def evaluateWhole (cs : List Char) : Except MathFault Scalar := do
  let (a, rest) ← expression (factor cs.length maxDepth) cs
  match skipBlank rest with
  | [] => .ok a
  | c :: _ => .error (.invalidOperator (String.singleton c))

/-- The value of an expression; a blank one is zero. -/
def evaluate (s : String) : Except MathError Scalar :=
  let rejected := s.toList.filter fun c => !isAllowed c
  if !rejected.isEmpty then .error ⟨s, .invalidOperator (String.ofList rejected)⟩
  else
    let cs := Text.trim s.toList
    if maxLength < Text.byteLength cs then .error ⟨String.ofList cs, .tooLong maxLength⟩
    else if cs.isEmpty then .ok (.int 0)
    else (evaluateWhole cs).mapError fun fault => ⟨String.ofList cs, fault⟩

def hasOperator (s : String) : Bool :=
  s.toList.any fun c => c ∈ ['+', '-', '*', '/', '(', ')']

end Placeholder.Arithmetic
