import Placeholder.Text.ClassTable

/-!
# Classes of letters

Membership in the Unicode classes that decide what a name is made of and where a word ends.
-/

namespace Placeholder.Text

def inRanges (ranges : List (Nat × Nat)) (n : Nat) : Bool :=
  ranges.any fun r => r.1 ≤ n && n ≤ r.2

def isAsciiAlnum (c : Char) : Bool :=
  c.isAlphanum

/-- A character of a local name: ASCII letters, digits and `_`, and their kin in all scripts. -/
def isWord (c : Char) : Bool :=
  if c.toNat < 0x80 then c.isAlphanum || c == '_' else inRanges ClassTable.word c.toNat

def isAlphabetic (c : Char) : Bool :=
  if c.toNat < 0x80 then c.isAlpha else inRanges ClassTable.alphabetic c.toNat

def isNumber (c : Char) : Bool :=
  if c.toNat < 0x80 then c.isDigit else inRanges ClassTable.numeric c.toNat

def isAlphanumeric (c : Char) : Bool :=
  isAlphabetic c || isNumber c

def isCased (c : Char) : Bool :=
  if c.toNat < 0x80 then c.isAlpha else inRanges ClassTable.cased c.toNat

def isCaseIgnorable (c : Char) : Bool :=
  inRanges ClassTable.caseIgnorable c.toNat

/-- The start of an identifier: an ASCII letter or `_`. -/
def isNameStart (c : Char) : Bool :=
  c.isAlpha || c == '_'

/-- The continuation of an identifier: an ASCII letter, a digit or `_`. -/
def isNamePart (c : Char) : Bool :=
  c.isAlphanum || c == '_'

def takeName : List Char → List Char × List Char
  | [] => ([], [])
  | c :: cs =>
    if isNameStart c then (c :: cs.takeWhile isNamePart, cs.dropWhile isNamePart)
    else ([], c :: cs)

end Placeholder.Text
