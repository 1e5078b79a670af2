import Placeholder.Formatter
import Placeholder.Text.Style
import Placeholder.Value.Encoding

/-!
# Formatters of texts

Numbers are taken by their texts.
-/

namespace Placeholder

/-- The text of a value for a formatter; what has items is written as JSON. -/
def Value.plainText : Value → String
  | .array items => (Value.array items).encode
  | .object entries => (Value.object entries).encode
  | v => v.templateText

namespace Formatter

def textInput : List String :=
  ["string", "int", "float"]

def ofText (name : String) (format : List Char → List Value → List Char) : Formatter where
  name := name
  accepts := textInput
  format := fun v args => .ok (.string (String.ofList (format v.plainText.toList args)))

def uppercase : Formatter :=
  ofText "uppercase" fun cs _ => Text.upper cs

def lowercase : Formatter :=
  ofText "lowercase" fun cs _ => Text.lower cs

def trim : Formatter :=
  ofText "trim" fun cs _ => Text.trim cs

def substr : Formatter :=
  ofText "substr" fun cs args => Text.slice cs (intArgument args 0 0) (intArgument? args 1)

def replace : Formatter :=
  ofText "replace" fun cs args =>
    let search := textArgument args 0 ""
    if search.isEmpty then cs else Text.replace search.toList (textArgument args 1 "").toList cs

def concat : Formatter :=
  ofText "concat" fun cs args =>
    match args with
    | [] => cs
    | [_] => cs ++ (textArgument args 0 "").toList
    | _ => (textArgument args 0 "").toList ++ cs ++ (textArgument args 1 "").toList

def slug : Formatter :=
  ofText "slug" fun cs args => Text.slug (textArgument args 0 "-").toList cs

def camel : Formatter :=
  ofText "camel" fun cs _ => Text.camel cs

def snake : Formatter :=
  ofText "snake" fun cs _ => Text.snake cs

def title : Formatter :=
  ofText "title" fun cs _ => Text.title cs

def texts : List Formatter :=
  [uppercase, lowercase, trim, substr, replace, concat, slug, camel, snake, title]

end Formatter

end Placeholder
