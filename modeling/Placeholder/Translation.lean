import Placeholder.Token
import Placeholder.Value.Encoding

/-!
# Translations

What becomes of a template: its text with every placeholder replaced, or the placeholder that could
not be resolved. A translation that succeeds in spite of unresolved placeholders lists them too.
-/

namespace Placeholder

structure Translation where
  template : String
  translated : Option String
  tokens : List Token := []
  resolved : Entries Value := []
  missing : List String := []
  warnings : List String := []
  errors : List String := []

namespace Translation

def success (template translated : String) : Translation :=
  { template, translated := some translated }

def failed (template : String) (missing errors : List String) : Translation :=
  { template, translated := none, missing, errors }

def succeeded (t : Translation) : Bool :=
  t.translated.isSome

def hasWarnings (t : Translation) : Bool :=
  !t.warnings.isEmpty

def failureReason (t : Translation) : Option String :=
  if t.succeeded then none
  else if !t.missing.isEmpty then some ("Missing fields: " ++ Text.join ", " t.missing)
  else if !t.errors.isEmpty then some (Text.join "; " t.errors)
  else some "Unknown error"

def listJson (ss : List String) : Json :=
  .array (ss.map .string)

def optionJson (s : Option String) : Json :=
  s.elim .null .string

def toJson (t : Translation) : Json :=
  .object
    [("success", .bool t.succeeded),
      ("original", .string t.template),
      ("translated", optionJson t.translated),
      ("tokens", listJson (t.tokens.map Token.raw)),
      ("resolved_values", .object (Value.entriesToJson t.resolved)),
      ("missing_fields", listJson t.missing),
      ("warnings", listJson t.warnings),
      ("errors", listJson t.errors),
      ("failure_reason", optionJson t.failureReason)]

end Translation

end Placeholder
