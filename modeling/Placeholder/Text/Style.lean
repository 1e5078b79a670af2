import Placeholder.Text.Casing
import Placeholder.Text.Digits
import Placeholder.Text.Pieces

/-!
# Styles of names and titles

Turning running text into slugs, camel case, snake case and titles. The words of a name are its runs
of ASCII letters and digits. A slug puts a separator into the gaps between the words; the separator
may quote the gap that it fills.
-/

namespace Placeholder.Text

/-- The spelling of an accented Latin letter in ASCII; other characters stay as they are. -/
def plainLetter (c : Char) : List Char :=
  match c with
  | 'À' | 'Á' | 'Â' | 'Ã' | 'Ä' | 'Å' => ['A']
  | 'à' | 'á' | 'â' | 'ã' | 'ä' | 'å' => ['a']
  | 'È' | 'É' | 'Ê' | 'Ë' => ['E']
  | 'è' | 'é' | 'ê' | 'ë' => ['e']
  | 'Ì' | 'Í' | 'Î' | 'Ï' => ['I']
  | 'ì' | 'í' | 'î' | 'ï' => ['i']
  | 'Ò' | 'Ó' | 'Ô' | 'Õ' | 'Ö' | 'Ø' => ['O']
  | 'ò' | 'ó' | 'ô' | 'õ' | 'ö' | 'ø' => ['o']
  | 'Ù' | 'Ú' | 'Û' | 'Ü' => ['U']
  | 'ù' | 'ú' | 'û' | 'ü' => ['u']
  | 'Ñ' => ['N']
  | 'ñ' => ['n']
  | 'Ç' => ['C']
  | 'ç' => ['c']
  | 'ß' => ['s', 's']
  | 'Æ' => ['A', 'E']
  | 'æ' => ['a', 'e']
  | c => [c]

def transliterate (cs : List Char) : List Char :=
  cs.flatMap plainLetter

/-- Replaces every longest run of `p` characters by a text computed from the run; `run` is the part
of the current run that lies behind. -/
def fillRunsFrom (p : Char → Bool) (fill : List Char → List Char) (run : List Char) :
    List Char → List Char
  | [] => if run.isEmpty then [] else fill run
  | c :: cs =>
    if p c then fillRunsFrom p fill (run ++ [c]) cs
    else (if run.isEmpty then [] else fill run) ++ c :: fillRunsFrom p fill [] cs

/-- Replaces every longest run of `p` characters by a text computed from the run. -/
def fillRuns (p : Char → Bool) (fill : List Char → List Char) (cs : List Char) : List Char :=
  fillRunsFrom p fill [] cs

/-- The reference after a dollar sign, which is a name in braces or a run of name characters, and
what follows it. -/
def takeReference? (cs : List Char) : Option (List Char × List Char) :=
  match cs with
  | '\x7b' :: cs => cut? ['\x7d'] cs
  | cs =>
    let name := cs.takeWhile isNamePart
    if name.isEmpty then none else some (name, cs.dropWhile isNamePart)

/-- A separator with its references filled in: `$0` is the gap itself, `$$` a dollar sign, and a
reference to anything else is nothing. The fuel bounds the number of references. -/
def expandFrom (gap : List Char) : Nat → List Char → List Char
  | 0, cs => cs
  | _ + 1, [] => []
  | fuel + 1, '$' :: cs =>
    match cs with
    | '$' :: rest => '$' :: expandFrom gap fuel rest
    | cs =>
      match takeReference? cs with
      | some (name, rest) =>
        (if readNat? UInt64.size name = some 0 then gap else []) ++ expandFrom gap fuel rest
      | none => '$' :: expandFrom gap fuel cs
  | fuel + 1, c :: cs => c :: expandFrom gap fuel cs

def expand (separator gap : List Char) : List Char :=
  expandFrom gap separator.length separator

def isSlugChar (c : Char) : Bool :=
  c.isLower || c.isDigit

def slug (separator cs : List Char) : List Char :=
  let joined := fillRuns (fun c => !isSlugChar c) (expand separator) (lower (transliterate cs))
  if separator.isEmpty then joined else trimCopies separator joined

def nameWords (cs : List Char) : List (List Char) :=
  (splitBy (fun c => !isAsciiAlnum c) cs).filter fun w => !w.isEmpty

def capitalize : List Char → List Char
  | [] => []
  | c :: cs => c.toUpper :: lowerAscii cs

def camel (cs : List Char) : List Char :=
  match nameWords cs with
  | [] => []
  | first :: rest => lowerAscii first ++ (rest.map capitalize).flatten

def parted : List Char → List Char
  | c :: d :: cs =>
    if c.isLower && d.isUpper then c :: '_' :: parted (d :: cs) else c :: parted (d :: cs)
  | cs => cs

/-- The words in lower case with underscores between them; a capital behind a small letter starts a
word. -/
def snake (cs : List Char) : List Char :=
  let joined := fillRuns (fun c => !isAsciiAlnum c) (fun _ => ['_']) (parted cs)
  trimBy (· == '_') (lowerAscii joined)

/-- Raises the first letter of every word and lowers the others; `inWord` tells whether the text
before lies in a word. -/
def titleFrom (inWord : Bool) : List Char → List Char
  | [] => []
  | c :: cs =>
    if isAlphanumeric c || c == '\'' then
      (if inWord then lowerChar c else upperChar c) ++ titleFrom true cs
    else c :: titleFrom false cs

def title (cs : List Char) : List Char :=
  titleFrom false cs

/-- A position clamped to a text of this length; a negative one counts from the end. -/
def sliceStart (length start : Int64) : Int64 :=
  if start < 0 then max (length + start) 0 else min start length

/-- The end of the block that starts at `first`; a negative count leaves out characters at the end
of the text. -/
def sliceEnd (length first : Int64) (count : Option Int64) : Int64 :=
  match count with
  | none => length
  | some n => if n < 0 then max (length + n) first else min (first + n) length

def slice (cs : List Char) (start : Int64) (count : Option Int64) : List Char :=
  let length := Int64.ofNat cs.length
  let first := sliceStart length start
  let last := sliceEnd length first count
  if last ≤ first then [] else (cs.take last.toNatClampNeg).drop first.toNatClampNeg

end Placeholder.Text
