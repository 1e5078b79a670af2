import Placeholder.Text.CaseTable
import Placeholder.Text.Letter

/-!
# Upper and lower case

Full case mapping: one letter may become several (`ß` becomes `SS`). A capital sigma becomes a
final sigma at the end of a word when a whole text is lowered, and an ordinary one when the letter
is lowered alone.
-/

namespace Placeholder.Text

/-- The letter reached by the run of code points that holds `n`, if a run does. -/
def shifted (rows : List (Nat × Nat × Nat × Int)) (n : Nat) : Option Char :=
  (rows.find? fun (first, last, step, _) =>
    first ≤ n && n ≤ last && (n - first) % step == 0).map
      fun (_, _, _, offset) => Char.ofNat (n + offset).toNat

/-- The other-case form of a letter beyond ASCII; a letter without one stays as it is. -/
def recase (rows : List (Nat × Nat × Nat × Int)) (expansions : List (Nat × List Nat))
    (c : Char) : List Char :=
  match shifted rows c.toNat with
  | some d => [d]
  | none =>
    match expansions.lookup c.toNat with
    | some ns => ns.map Char.ofNat
    | none => [c]

def upperChar (c : Char) : List Char :=
  if c.toNat < 0x80 then [c.toUpper]
  else recase CaseTable.upperShifts CaseTable.upperExpansions c

def lowerChar (c : Char) : List Char :=
  if c.toNat < 0x80 then [c.toLower]
  else recase CaseTable.lowerShifts CaseTable.lowerExpansions c

def upper (cs : List Char) : List Char :=
  cs.flatMap upperChar

/-- Whether the first character that case rules do not look past is a letter with case. -/
def meetsCased (cs : List Char) : Bool :=
  match cs.dropWhile isCaseIgnorable with
  | [] => false
  | c :: _ => isCased c

/-- Lowers a text; `inWord` tells whether the text before it ends in a letter with case. -/
def lowerFrom (inWord : Bool) : List Char → List Char
  | [] => []
  | c :: cs =>
    let form :=
      if c = 'Σ' then [if inWord && !meetsCased cs then 'ς' else 'σ'] else lowerChar c
    form ++ lowerFrom (if isCaseIgnorable c then inWord else isCased c) cs

def lower (cs : List Char) : List Char :=
  lowerFrom false cs

def lowerAscii (cs : List Char) : List Char :=
  cs.map Char.toLower

end Placeholder.Text
