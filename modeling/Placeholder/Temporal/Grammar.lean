import Placeholder.Number.Numeral
import Placeholder.Temporal.Lexeme
import Placeholder.Temporal.Tree

/-!
# Grammar of temporal expressions

Negation binds tightest, then conjunction, then disjunction; parentheses group. Negations and
parentheses may be open at most thirty-two at a time. A text without characters always holds.
-/

namespace Placeholder.Temporal

def maxNesting : Nat := 32

def leadingInt (cs : List Char) : Int64 :=
  let (sign, digits) := Number.Numeral.takeSign (Text.trim cs)
  (Text.readInt64? (sign.toList ++ digits.takeWhile Char.isDigit)).getD 0

def conditionOf (cs : List Char) : Except GrammarError Tree :=
  let text := String.ofList cs
  match Text.after? "cron:".toList cs with
  | some spec => .ok (.cron (String.ofList (Text.trim spec)))
  | none =>
    if Text.startsWith "nth:".toList cs then
      match Text.splitOn ':' cs with
      | [_, day, ns] =>
        .ok (.nthWeekday (String.ofList day) ((Text.splitOn ',' ns).map leadingInt))
      | _ => .error (.invalidNthFormat text)
    else
      match Text.after? "last:".toList cs, takeClockPair? cs with
      | some day, _ => .ok (.lastWeekday (String.ofList day))
      | none, some (_, _, []) => .ok (.timeRange text)
      | _, _ => .ok (if builtInKeywords.contains text then .keyword text else .custom text)

abbrev Phrase := Except GrammarError (Tree × List Located)

/-- The operands after a first one, each behind the operator. The fuel bounds their number. -/
def operands (operator : Lexeme) (operand : List Located → Phrase) :
    Nat → List Located → Except GrammarError (List Tree × List Located)
  | fuel + 1, l :: ls =>
    if l.lexeme = operator then do
      let (t, ls) ← operand ls
      let (ts, ls) ← operands operator operand fuel ls
      .ok (t :: ts, ls)
    else .ok ([], l :: ls)
  | _, ls => .ok ([], ls)

def chain (operator : Lexeme) (join : List Tree → Tree) (operand : List Located → Phrase)
    (ls : List Located) : Phrase := do
  let (t, ls) ← operand ls
  let (ts, ls) ← operands operator operand ls.length ls
  .ok (join (t :: ts), ls)

def conjunction (operand : List Located → Phrase) : List Located → Phrase :=
  chain .and Tree.ofAll operand

def disjunction (operand : List Located → Phrase) : List Located → Phrase :=
  chain .or Tree.ofAny (conjunction operand)

def closeGroup (t : Tree) (ls : List Located) : Phrase :=
  match ls with
  | ⟨.closing, _⟩ :: ls => .ok (t, ls)
  | _ => .error .missingClosingParen

/-- A negation, a group or a condition in a text with `size` characters; `budget` more negations and
parentheses may be opened. -/
def operand (size : Nat) : (budget : Nat) → List Located → Phrase
  | _, [] => .error (.expectedCondition "end of expression" size)
  | 0, ⟨.not, offset⟩ :: _ => .error (.nestingTooDeep offset maxNesting)
  | 0, ⟨.opening, offset⟩ :: _ => .error (.nestingTooDeep offset maxNesting)
  | budget + 1, ⟨.not, _⟩ :: ls => do
    let (t, ls) ← operand size budget ls
    .ok (.not t, ls)
  | budget + 1, ⟨.opening, _⟩ :: ls => do
    let (t, ls) ← disjunction (operand size budget) ls
    closeGroup t ls
  | _, ⟨.condition cs, _⟩ :: ls => (conditionOf cs).map fun t => (t, ls)
  | _, ⟨lexeme, offset⟩ :: _ =>
    .error (.expectedCondition (String.ofList lexeme.text) offset)

def treeOf (size : Nat) (ls : List Located) : Except GrammarError Tree := do
  match ← disjunction (operand size maxNesting) ls with
  | (t, []) => .ok t
  | (_, l :: _) => .error (.unexpectedLexeme (String.ofList l.lexeme.text) l.offset)

namespace Tree

def read (expression : String) : Except GrammarError Tree := do
  let cs := Text.trim expression.toList
  if cs.isEmpty then .ok (.constant true) else treeOf cs.length (← Lexeme.scan cs)

end Tree

/-- The texts of the conditions in an expression, each once, in the order of their first places. -/
def conditionTexts (expression : String) : Except GrammarError (List String) := do
  let ls ← Lexeme.scan (Text.trim expression.toList)
  .ok <| List.eraseDups <| ls.filterMap fun l =>
    match l.lexeme with
    | .condition cs => some (String.ofList cs)
    | _ => none

end Placeholder.Temporal
