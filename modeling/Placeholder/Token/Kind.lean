/-!
# Kinds of placeholders

The syntactic category of a placeholder decides which resolver answers it.
-/

namespace Placeholder

inductive TokenKind where
  | model
  | table
  | relation
  | dynamic
  | collection
  | function
  | contextVariable
  | math
  | nullCoalesce
  | temporal
  | literal
  | unknown
  | compound
  | useDeclaration
  | localVariable
  | formatter
  deriving DecidableEq, Repr

namespace TokenKind

def all : List TokenKind :=
  [model, table, relation, dynamic, collection, function, contextVariable, math, nullCoalesce, temporal,
    literal, unknown, compound, useDeclaration, localVariable, formatter]

def name : TokenKind → String
  | model => "model"
  | table => "table"
  | relation => "relation"
  | dynamic => "dynamic"
  | collection => "collection"
  | function => "function"
  | contextVariable => "variable"
  | math => "math"
  | nullCoalesce => "null_coalesce"
  | temporal => "temporal"
  | literal => "literal"
  | unknown => "unknown"
  | compound => "compound"
  | useDeclaration => "use_declaration"
  | localVariable => "local_variable"
  | formatter => "formatter"

def ofName? (s : String) : Option TokenKind :=
  all.find? fun kind => kind.name == s

def readsPath (kind : TokenKind) : Bool :=
  kind ∈ [model, table, relation, dynamic, collection]

def isCompound (kind : TokenKind) : Bool :=
  kind ∈ [compound, useDeclaration, localVariable, formatter]

def description : TokenKind → String
  | model => "Model field access"
  | table => "Direct table access"
  | relation => "Relation chain navigation"
  | dynamic => "Dynamic field resolution"
  | collection => "Collection/array access"
  | function => "Function call"
  | contextVariable => "Variable reference"
  | math => "Math expression"
  | nullCoalesce => "Null coalesce expression"
  | temporal => "Temporal expression"
  | literal => "Literal value"
  | unknown => "Unknown token type"
  | compound => "Compound expression with USE clause"
  | useDeclaration => "USE clause variable declaration"
  | localVariable => "Local variable reference"
  | formatter => "Formatter function call"

end TokenKind

end Placeholder
