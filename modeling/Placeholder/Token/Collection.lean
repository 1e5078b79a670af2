import Placeholder.Token

/-!
# Lists of tokens

Selections from the tokens of a template, in their order.
-/

namespace Placeholder.Tokens

def ofKinds (kinds : List TokenKind) (tokens : List Token) : List Token :=
  tokens.filter fun t => kinds.contains t.kind

def readingPaths (tokens : List Token) : List Token :=
  tokens.filter fun t => t.kind.readsPath

def addName (names : List String) (name : String) : List String :=
  if name.isEmpty || names.contains name then names else names ++ [name]

def heads (tokens : List Token) : List String :=
  tokens.foldl (fun names t => addName names t.head) []

def hasDynamic (tokens : List Token) : Bool :=
  tokens.any Token.isDynamic

end Placeholder.Tokens
