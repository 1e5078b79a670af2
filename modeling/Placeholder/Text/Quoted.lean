import Placeholder.Text.Letter
import Placeholder.Text.Pieces
import Placeholder.Text.ShapeTable

/-!
# Quoted texts

A text in quotation marks for diagnostics. Marks and backslashes are escaped, and a character that
cannot be printed by itself is written by its number.
-/

namespace Placeholder.Text

def isPrintable (c : Char) : Bool :=
  0x20 ≤ c.toNat && !inRanges ShapeTable.shapeless c.toNat

def numberedChar (c : Char) : List Char :=
  ['\\', 'u', '\x7b'] ++ Nat.toDigits 16 c.toNat ++ ['\x7d']

def quotedChar (c : Char) : List Char :=
  match c with
  | '"' => ['\\', '"']
  | '\\' => ['\\', '\\']
  | '\x00' => ['\\', '0']
  | '\t' => ['\\', 't']
  | '\n' => ['\\', 'n']
  | '\r' => ['\\', 'r']
  | c => if isPrintable c then [c] else numberedChar c

def quoted (s : String) : String :=
  String.ofList ('"' :: s.toList.flatMap quotedChar ++ ['"'])

def quotedList (ss : List String) : String :=
  "[" ++ join ", " (ss.map quoted) ++ "]"

end Placeholder.Text
