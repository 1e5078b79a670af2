/-!
# White space and trimming

A text is handled as the list of its characters. `trim` removes the white space of the Unicode
standard from both ends; `trimBy` does the same for any class of characters.
-/

namespace Placeholder.Text

def isBlank (c : Char) : Bool :=
  let n := c.toNat
  (9 ≤ n && n ≤ 13) || n == 0x20 || n == 0x85 || n == 0xA0 || n == 0x1680 ||
    (0x2000 ≤ n && n ≤ 0x200A) || n == 0x2028 || n == 0x2029 || n == 0x202F || n == 0x205F ||
    n == 0x3000

/-- The blanks that are ASCII; the vertical tab is not one of them. -/
def isAsciiBlank (c : Char) : Bool :=
  c == ' ' || c == '\t' || c == '\n' || c == '\x0c' || c == '\r'

/-- The text without the longest run of `p` characters at its start. -/
def trimStart (p : Char → Bool) (cs : List Char) : List Char :=
  cs.dropWhile p

/-- The text without the longest run of `p` characters at its end. -/
def trimEnd (p : Char → Bool) (cs : List Char) : List Char :=
  (cs.reverse.dropWhile p).reverse

/-- The text without the `p` characters at either end. -/
def trimBy (p : Char → Bool) (cs : List Char) : List Char :=
  trimEnd p (trimStart p cs)

def trim (cs : List Char) : List Char :=
  trimBy isBlank cs

def trimmed (s : String) : String :=
  String.ofList (trim s.toList)

end Placeholder.Text
