import Placeholder.Token
import Placeholder.Token.Argument

/-!
# Classifying placeholders

The checks run in a fixed order and the first that holds decides: a default behind `??`, a temporal
name, a call, a variable, arithmetic, and otherwise a path.
-/

namespace Placeholder

/-- The parts of a call `name(inner)` that closes at the end of the text. -/
def splitCall? (cs : List Char) : Option (List Char × List Char) :=
  let (name, rest) := Text.takeName cs
  if name.isEmpty then none
  else do
    let inner ← Text.after? ['('] (Text.trimStart Text.isBlank rest)
    let inner ← Text.before? [')'] inner
    some (name, inner)

namespace Token

def isQuoteMargin (c : Char) : Bool :=
  c ∈ [' ', '\t', '\n', '\r', '\x00', '\x0b', '\'', '"']

def isCall (cs : List Char) : Bool :=
  let (name, rest) := Text.takeName cs
  !name.isEmpty && Text.startsWith ['('] (Text.trimStart Text.isBlank rest)

def isTemporal (cs : List Char) : Bool :=
  Text.startsWith "TEMPORAL:".toList cs || Text.startsWith "NOW".toList cs ||
    Text.startsWith "TODAY".toList cs

def isOperatorFlank (c : Char) : Bool :=
  c.isDigit || Text.isAsciiBlank c

def isArithmetic : List Char → Bool
  | a :: op :: b :: rest =>
    ((op = '+' || op = '-' || op = '*' || op = '/') && isOperatorFlank a && isOperatorFlank b) ||
      isArithmetic (op :: b :: rest)
  | _ => false

def isPascalCase : List Char → Bool
  | c :: cs => c.isUpper && cs.all Char.isAlphanum
  | [] => false

def isSnakeCase : List Char → Bool
  | c :: cs => c.isLower && cs.all fun d => d.isLower || d.isDigit || d == '_'
  | [] => false

def isSelector (segment : String) : Bool :=
  Number.isNumeral segment.toList || segment == "*" || segment == "first" || segment == "last"

def pathKind (path : List String) : TokenKind :=
  let head := (path.headD "").toList
  if path.any isIndicator then .dynamic
  else if path.any isSelector then .collection
  else if isPascalCase head then if 2 < path.length then .relation else .model
  else if isSnakeCase head then .table
  else .unknown

def ofPath (cs : List Char) : Token :=
  let path := Path.segments cs
  { raw := String.ofList cs, kind := pathKind path, path := path }

def ofCoalesce (cs path default : List Char) : Token :=
  let default := Text.trimBy isQuoteMargin default
  { raw := String.ofList cs
    kind := .nullCoalesce
    path := Path.segments (Text.trim path)
    default := if default.isEmpty then none else some (String.ofList default) }

def ofCall (cs : List Char) : Token :=
  match splitCall? cs with
  | some (name, inner) =>
    let inner := Text.trim inner
    let references := (Argument.referencePositions inner).map Text.natText
    { raw := String.ofList cs
      kind := .function
      path := []
      function := some (String.ofList name)
      args := Argument.decodeAll inner
      metadata := [("reference_args", Text.join "," references)] }
  | none => { raw := String.ofList cs, kind := .unknown, path := [] }

/-- The family of a temporal placeholder, and what follows its colon if there is one. -/
def temporalFamily (cs : List Char) : String × Option (List Char) :=
  match Text.after? "TEMPORAL:".toList cs with
  | some rest => ("temporal", some rest)
  | none =>
    match Text.after? "NOW:".toList cs with
    | some rest => ("now", some rest)
    | none =>
      if cs = "NOW".toList then ("now", none)
      else
        match Text.after? "TODAY:".toList cs with
        | some rest => ("today", some rest)
        | none => if cs = "TODAY".toList then ("today", none) else ("unknown", none)

/-- A temporal placeholder. The whole text between the parentheses of a call is kept as its
expression beside the arguments, since an expression may hold commas of its own. -/
def ofTemporal (cs : List Char) : Token :=
  let (family, rest) := temporalFamily cs
  let (function, args, expression) : Option String × List Value × List Char :=
    match rest with
    | none => (if family = "unknown" then none else some "default", [], [])
    | some rest =>
      match splitCall? rest with
      | some (name, inner) =>
        (some (String.ofList name), Argument.decodeAll (Text.trim inner),
          Text.trimBy isQuoteMargin inner)
      | none =>
        if family = "temporal" then (none, [], rest) else (some (String.ofList rest), [], [])
  { raw := String.ofList cs
    kind := .temporal
    path := []
    function := function
    args := args
    metadata := [("temporal_type", family), ("expression", String.ofList expression)] }

def classifyTrimmed (cs : List Char) : Token :=
  match Text.cut? "??".toList cs with
  | some (path, default) => ofCoalesce cs path default
  | none =>
    if isTemporal cs then ofTemporal cs
    else if isCall cs then ofCall cs
    else if Text.startsWith ['$'] cs && !cs.contains '.' then
      { raw := String.ofList cs, kind := .contextVariable, path := [String.ofList (cs.drop 1)] }
    else if isArithmetic cs then
      { raw := String.ofList cs
        kind := .math
        path := []
        metadata := [("expression", String.ofList cs)] }
    else ofPath cs

def classify (cs : List Char) : Token :=
  classifyTrimmed (Text.trim cs)

def parse (s : String) : Token :=
  classify s.toList

end Token

end Placeholder
