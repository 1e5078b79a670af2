import Placeholder.Cache
import Placeholder.Pipeline
import Placeholder.Template
import Placeholder.Translation

/-!
# Translators

A translator replaces the placeholders of a template by the texts of their values. A malformed
template is an error. A placeholder without a value ends the translation in strict mode; otherwise
it becomes empty or stays as it is written, and the translation goes on. Tokens are kept in a cache
under the text of the template.
-/

namespace Placeholder

/-- What has been found out about the placeholders of a template. -/
structure Findings where
  /-- The texts for the placeholders; none for one that stays as it is. -/
  replacements : Entries (Option String) := []
  resolved : Entries Value := []
  missing : List String := []
  warnings : List String := []

namespace Findings

def resolve (f : Findings) (raw : String) (v : Value) : Findings :=
  { f with
    replacements := f.replacements.insert raw (some v.templateText)
    resolved := f.resolved.insert raw v }

def miss (f : Findings) (keep : Bool) (raw reason : String) : Findings :=
  { f with
    replacements := f.replacements.insert raw (if keep then none else some "")
    missing := f.missing ++ [raw]
    warnings := f.warnings ++ [reason] }

def replacement (f : Findings) (content : String) : Option String :=
  (f.replacements.get? content).join

end Findings

/-- Why a translation ends before its last placeholder. -/
inductive Interruption where
  | malformed (e : Failure)
  | unresolved (raw : String) (e : Failure)

def Pipeline.find (p : Pipeline) (keep : Bool) (c : Context) (f : Findings) (t : Token) :
    Except Interruption Findings :=
  match p.resolve t c with
  | .ok v => .ok (f.resolve t.raw v)
  | .error e =>
    if e.isMalformed then .error (.malformed e)
    else if c.strict then .error (.unresolved t.raw e)
    else .ok (f.miss keep t.raw e.message)

def Pipeline.translateTokens (p : Pipeline) (keep : Bool) (template : String)
    (tokens : List Token) (c : Context) : Except Failure Translation :=
  match tokens.foldlM (p.find keep c) {} with
  | .error (.malformed e) => .error e
  | .error (.unresolved raw e) => .ok (.failed template [raw] [e.message])
  | .ok f =>
    .ok
      { Translation.success template (Template.substitute template f.replacement) with
        tokens := tokens
        resolved := f.resolved
        missing := f.missing
        warnings := f.warnings }

/-- A pipeline with the settings and the cache of its translations. -/
structure Translator where
  pipeline : Pipeline
  cache : Cache (List Token) := .disabled
  cacheLabel : String := ""
  cacheTtl : Option Nat := none
  strict : Bool := true
  /-- Whether placeholders without values stay as they are written. -/
  keepUnresolved : Bool := false
  /-- The policy of the contexts over models that the translator makes. -/
  policy : Policy := .recommended

namespace Translator

def withCache (tr : Translator) (cache : Cache (List Token)) (label : String)
    (ttl : Option Nat) : Translator :=
  { tr with cache := cache, cacheLabel := label, cacheTtl := ttl }

def context (tr : Translator) (data : Value) : Context :=
  (Context.ofData data).withStrict tr.strict

def modelContext (tr : Translator) (m : Model) : Context :=
  { source := m.source tr.policy, strict := tr.strict }

def cacheKey (tr : Translator) (template : String) : String :=
  tr.cacheLabel ++ template

/-- The tokens of a template, and the translator afterwards. A call in which the cache breaks does not
return them. -/
def parse (tr : Translator) (now : Nat) (template : String) :
    Except GrammarError (List Token) × Translator :=
  let key := tr.cacheKey template
  match tr.cache.get now key with
  | (some tokens, cache) => (.ok tokens, { tr with cache := cache })
  | (none, cache) =>
    match Template.parse template with
    | .ok tokens => (.ok tokens, { tr with cache := cache.set now key tokens tr.cacheTtl })
    | .error e => (.error e, { tr with cache := cache })

def hasDoubleBraces (cs : List Char) : Bool :=
  Text.occurs ['\x7b', '\x7b'] cs || Text.occurs ['\x7d', '\x7d'] cs

def translate (tr : Translator) (now : Nat) (template : String) (c : Context) :
    Except Failure Translation × Translator :=
  if hasDoubleBraces template.toList then
    match tr.parse now template with
    | (.ok tokens, tr) =>
      (tr.pipeline.translateTokens tr.keepUnresolved template tokens c, tr)
    | (.error e, tr) => (.error (.grammar e), tr)
  else (.ok (.success template template), tr)

def translateValue (tr : Translator) (now : Nat) (template : String) (data : Value) :
    Except Failure Translation × Translator :=
  tr.translate now template (tr.context data)

/-- Translates templates in their order; the first error ends the work. -/
def translateAll (tr : Translator) (now : Nat) (templates : List String) (c : Context) :
    Except Failure (List Translation) × Translator :=
  match templates with
  | [] => (.ok [], tr)
  | template :: rest =>
    match tr.translate now template c with
    | (.error e, tr) => (.error e, tr)
    | (.ok t, tr) =>
      let (ts, tr) := tr.translateAll now rest c
      (ts.map (t :: ·), tr)

end Translator

end Placeholder
