import Placeholder.Clause.Declaration
import Placeholder.Failure

/-!
# USE clauses

`USE declarations && statement` binds names to placeholders and uses them in a statement. The clause
ends at the first `&&` behind its first character.
-/

namespace Placeholder

structure Clause where
  declarations : List Clause.Declaration
  statement : String
  template : String
  deriving DecidableEq, Repr

namespace Clause

def isClause (template : String) : Bool :=
  Text.startsWith "USE ".toList (Text.trim template.toList)

def afterSeparator? (cs : List Char) : Option (List Char) :=
  Text.after? ['&', '&'] (skipBlank cs)

/-- The text before the first separator behind its first character, and the text behind the
separator. -/
def splitAtSeparator? : List Char → Option (List Char × List Char)
  | [] => none
  | c :: cs =>
    match afterSeparator? cs with
    | some rest => some ([c], rest)
    | none => (splitAtSeparator? cs).map fun (block, rest) => (c :: block, rest)

/-- The block of declarations and the statement of a trimmed template, both without white space
around them. A separator at once behind the keyword leaves the block empty if there are two blanks
or more between them. -/
def split? (cs : List Char) : Option (List Char × List Char) := do
  let (blanks, rest) ← takeRun? Text.isBlank (← Text.after? "USE".toList cs)
  match splitAtSeparator? rest with
  | some (block, statement) => some (Text.trim block, Text.trim statement)
  | none =>
    if blanks.length < 2 then none
    else (Text.after? ['&', '&'] rest).map fun statement => ([], Text.trim statement)

def duplicate? (seen : List String) : List Declaration → Option String
  | [] => none
  | d :: ds => if seen.contains d.name then some d.name else duplicate? (d.name :: seen) ds

def parts (template : String) : Except ClauseFault (List Declaration × String) := do
  let cs := Text.trim template.toList
  if !isClause template then throw .missingKeyword
  match split? cs with
  | none => .error .missingSeparator
  | some (block, statement) =>
    let ds := readDeclarations block
    if statement.isEmpty then .error .emptyStatement
    else if ds.isEmpty then .error .malformedDeclaration
    else
      match duplicate? [] ds with
      | some name => .error (.duplicateName name)
      | none => .ok (ds, String.ofList statement)

def read (template : String) : Except ClauseError Clause :=
  match parts template with
  | .ok (declarations, statement) => .ok ⟨declarations, statement, template⟩
  | .error fault => .error ⟨template, some fault⟩

def names (c : Clause) : List String :=
  c.declarations.map Declaration.name

def hasConditions (c : Clause) : Bool :=
  c.declarations.any fun d => d.condition.isSome

def declaration? (c : Clause) (name : String) : Option Declaration :=
  c.declarations.find? fun d => d.name == name

end Clause

end Placeholder
