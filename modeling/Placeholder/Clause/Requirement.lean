import Placeholder.Clause.Declaration
import Placeholder.Failure
import Placeholder.Formatter
import Placeholder.Token.Argument
import Placeholder.Value.Encoding

/-!
# Conditions on values

`BETWEEN` and the ordering operators compare numbers. `=` and its kin compare after conversion: `null`
and booleans by truth, and a string with a number as numbers where the string is a numeral. A
condition of no known form is met by every value.
-/

namespace Placeholder

namespace Value

def isTruthy : Value → Bool
  | null => false
  | bool b => b
  | int n => n != 0
  | float x => x != 0.0
  | string s => !s.isEmpty && s != "0"
  | array items => !items.isEmpty
  | object entries => !entries.isEmpty
  | dateTime _ => true
  | host _ => true

def sameNumber (a b : Value) : Bool :=
  a.toScalar.compare b.toScalar == .eq

/-- Whether a number equals a string: as numbers if the string is a numeral, else as texts. -/
def numberEqText (n : Value) (s : String) : Bool :=
  if Number.isNumeral s.toList then sameNumber n (.string s) else n.templateText == s

/-- Whether two strings are equal: as numbers if both are numerals, else as texts. -/
def textEqText (s t : String) : Bool :=
  if Number.isNumeral s.toList && Number.isNumeral t.toList then
    sameNumber (.string s) (.string t)
  else s == t

mutual

def looseEq : Value → Value → Bool
  | null, null => true
  | bool a, b => a == b.isTruthy
  | a, bool b => a.isTruthy == b
  | null, string s => s.isEmpty
  | string s, null => s.isEmpty
  | null, b => !b.isTruthy
  | a, null => !a.isTruthy
  | int a, int b => sameNumber (.int a) (.int b)
  | int a, float b => sameNumber (.int a) (.float b)
  | float a, int b => sameNumber (.float a) (.int b)
  | float a, float b => sameNumber (.float a) (.float b)
  | int a, string s => numberEqText (.int a) s
  | float a, string s => numberEqText (.float a) s
  | string s, int b => numberEqText (.int b) s
  | string s, float b => numberEqText (.float b) s
  | string s, string t => textEqText s t
  | dateTime t, string s => t.text == s
  | string s, dateTime t => t.text == s
  | array a, array b => looseEqItems a b
  | object a, object b => a.length == b.length && looseEqEntries a b
  | dateTime a, dateTime b => a == b
  | host a, host b => a.identity == b.identity
  | _, _ => false

def looseEqItems : List Value → List Value → Bool
  | [], [] => true
  | v :: vs, w :: ws => looseEq v w && looseEqItems vs ws
  | _, _ => false

def looseEqEntries : List (String × Value) → List (String × Value) → Bool
  | [], _ => true
  | (k, v) :: rest, other =>
    (match Entries.get? other k with
      | some w => looseEq v w
      | none => false) && looseEqEntries rest other

end

end Value

namespace Clause

inductive Requirement where
  | between (low high : List Char)
  | comparison (operator operand : List Char)
  deriving DecidableEq, Repr

namespace Requirement

/-- The upper end of a range after its lower one: white space, `AND`, white space and the rest of
the line, which ends the text. -/
def upperEnd? (cs : List Char) : Option (List Char) := do
  let (_, rest) ← takeRun? Text.isBlank cs
  let (_, rest) ← takeRun? Text.isBlank (← afterKeyword? "AND" rest)
  if rest.isEmpty || rest.contains '\n' then none else some rest

/-- The two ends of a range; the lower end is a character or more of one line, as few as possible. -/
def ends? : List Char → Option (List Char × List Char)
  | [] => none
  | c :: cs =>
    if c = '\n' then none
    else
      match upperEnd? cs with
      | some high => some ([c], high)
      | none => (ends? cs).map fun (low, high) => (c :: low, high)

/-- The range of a text that starts with `BETWEEN`. The lower end begins as late as it can, but one
blank at least stands in front of it. -/
def between? (cs : List Char) : Option Requirement := do
  let (blanks, rest) ← takeRun? Text.isBlank (← afterKeyword? "BETWEEN" cs)
  let (low, high) ← (List.range blanks.length).findSome? fun n =>
    ends? (blanks.drop (blanks.length - n) ++ rest)
  some (.between low high)

/-- The comparison of a text that starts with an operator. Where no operand follows, the last
character of a longer operator is the operand. -/
def comparison? (cs : List Char) : Option Requirement := do
  let (operator, rest) ← takeRun? isOperatorChar cs
  match skipBlank rest with
  | [] =>
    if operator.length < 2 then none
    else some (.comparison operator.dropLast (operator.drop (operator.length - 1)))
  | operand => if operand.contains '\n' then none else some (.comparison operator operand)

def read? (cs : List Char) : Option Requirement :=
  (between? cs).or (comparison? cs)

def text : Requirement → String
  | between low high => "BETWEEN " ++ String.ofList low ++ " AND " ++ String.ofList high
  | comparison operator operand => String.ofList operator ++ " " ++ String.ofList operand

def bound (cs : List Char) : Number.Scalar :=
  (Value.string (String.ofList (Text.trim cs))).toScalar

/-- Whether a value stands in a relation to an operand; an unknown operator holds of all. -/
def compares (v : Value) (operator : String) (operand : Value) : Bool :=
  let order := v.toScalar.compare operand.toScalar
  match operator with
  | "=" | "==" => v.looseEq operand
  | "===" => v.strictEq operand
  | "!=" | "<>" => !v.looseEq operand
  | "!==" => !v.strictEq operand
  | "<" => order == .lt
  | "<=" => order != .gt
  | ">" => order == .gt
  | ">=" => order != .lt
  | _ => true

def holds (v : Value) : Requirement → Bool
  | between low high =>
    v.toScalar.compare (bound low) != .lt && v.toScalar.compare (bound high) != .gt
  | comparison operator operand =>
    compares v (String.ofList operator) (Argument.decode (Text.trim operand))

end Requirement

def require (name : String) (v : Value) (condition expression : String) :
    Except ResolutionError Unit :=
  match Requirement.read? (Text.trim condition.toList) with
  | none => .ok ()
  | some r =>
    if r.holds v then .ok () else .error (.conditionNotMet name v.encode r.text expression)

def meets (v : Value) (condition : String) : Bool :=
  match require "check" v condition "" with
  | .ok _ => true
  | .error _ => false

end Clause

end Placeholder
