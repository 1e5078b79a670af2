import Placeholder.Text.Blank

/-!
# Cutting and joining texts

Splitting at a separator, searching for a sub-text and replacing it. Every function walks the list
of characters from the left; matches never overlap.
-/

namespace Placeholder.Text

/-- What follows `head`, when the text starts with it. -/
def after? : List Char → List Char → Option (List Char)
  | [], cs => some cs
  | h :: hs, c :: cs => if h = c then after? hs cs else none
  | _ :: _, [] => none

theorem after?_eq_some_iff (head cs rest : List Char) :
    after? head cs = some rest ↔ cs = head ++ rest := by
  induction head generalizing cs with
  | nil => simp [after?]
  | cons h hs ih =>
    cases cs with
    | nil => simp [after?]
    | cons c cs =>
      by_cases hc : h = c
      · simp [after?, hc, ih]
      · simp [after?, hc, Ne.symm hc]

def startsWith (head cs : List Char) : Bool :=
  (after? head cs).isSome

/-- What precedes `tail`, when the text ends with it. -/
def before? (tail cs : List Char) : Option (List Char) :=
  (after? tail.reverse cs.reverse).map List.reverse

/-- The pieces between the characters that satisfy `p`; there is always one more than those. -/
def splitBy (p : Char → Bool) : List Char → List (List Char)
  | [] => [[]]
  | c :: cs =>
    if p c then [] :: splitBy p cs
    else
      match splitBy p cs with
      | [] => [[c]]
      | piece :: pieces => (c :: piece) :: pieces

def splitOn (sep : Char) (cs : List Char) : List (List Char) :=
  splitBy (· == sep) cs

def splitString (sep : Char) (s : String) : List String :=
  (splitOn sep s.toList).map String.ofList

def words (cs : List Char) : List (List Char) :=
  (splitBy isBlank cs).filter fun w => !w.isEmpty

/-- The texts before and after the first occurrence of `sub`. -/
def cut? (sub : List Char) : List Char → Option (List Char × List Char)
  | [] => if sub.isEmpty then some ([], []) else none
  | c :: cs =>
    match after? sub (c :: cs) with
    | some rest => some ([], rest)
    | none => (cut? sub cs).map fun (before, rest) => (c :: before, rest)

/-- The text after the last occurrence of `sub`, or the whole text when there is none. -/
def afterLast (sub cs : List Char) : List Char :=
  match cut? sub.reverse cs.reverse with
  | some (tail, _) => tail.reverse
  | none => cs

def occurs (sub cs : List Char) : Bool :=
  (cut? sub cs).isSome

/-- Replaces `sub` by `new`, passing over `skip` characters first. -/
def replaceFrom (sub new : List Char) : Nat → List Char → List Char
  | _, [] => []
  | skip + 1, _ :: cs => replaceFrom sub new skip cs
  | 0, c :: cs =>
    if startsWith sub (c :: cs) then new ++ replaceFrom sub new (sub.length - 1) cs
    else c :: replaceFrom sub new 0 cs

/-- Replaces every occurrence of the non-empty text `sub` by `new`. -/
def replace (sub new cs : List Char) : List Char :=
  replaceFrom sub new 0 cs

/-- The texts one after another with `sep` between them. -/
def join (sep : String) (parts : List String) : String :=
  sep.intercalate parts

/-- Drops the copies of the non-empty text `head` at the start, with `fuel` bounding their count. -/
def dropCopies (head : List Char) : Nat → List Char → List Char
  | 0, cs => cs
  | fuel + 1, cs =>
    match after? head cs with
    | some rest => dropCopies head fuel rest
    | none => cs

/-- The text without the copies of the non-empty text `sub` at either end. -/
def trimCopies (sub cs : List Char) : List Char :=
  let rest := dropCopies sub cs.length cs
  (dropCopies sub.reverse rest.length rest.reverse).reverse

def byteLength (cs : List Char) : Nat :=
  cs.foldr (fun c n => c.utf8Size + n) 0

end Placeholder.Text
