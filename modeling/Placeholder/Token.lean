import Placeholder.Token.Kind
import Placeholder.Value

/-!
# Tokens

A token is a classified placeholder. Its text never holds the surrounding braces. The first segment
of its path is the head; the other segments form the field path.
-/

namespace Placeholder

structure Token where
  raw : String
  kind : TokenKind
  path : List String
  function : Option String := none
  args : List Value := []
  default : Option String := none
  metadata : Entries String := []

namespace Token

def full (t : Token) : String :=
  "\x7b\x7b" ++ t.raw ++ "\x7d\x7d"

def head (t : Token) : String :=
  t.path.headD ""

def fieldPath (t : Token) : List String :=
  t.path.drop 1

def isIndicator (segment : String) : Bool :=
  segment.toList.head? == some '$'

def isDynamic (t : Token) : Bool :=
  t.path.any isIndicator

def withFunction (t : Token) (name : Option String) (args : List Value) : Token :=
  { t with function := name, args := args }

def withDefault (t : Token) (default : Option String) : Token :=
  { t with default := default }

def withKind (t : Token) (kind : TokenKind) : Token :=
  { t with kind := kind }

def withMetadata (t : Token) (key value : String) : Token :=
  { t with metadata := t.metadata.insert key value }

def meta? (t : Token) (key : String) : Option String :=
  t.metadata.get? key

def sortedMetadata (t : Token) : Entries String :=
  t.metadata.mergeSort fun a b => decide (a.1 ≤ b.1)

end Token

end Placeholder
