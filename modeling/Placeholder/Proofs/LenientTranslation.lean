import Mathlib
import Placeholder.Proofs.Searching
import Placeholder.Proofs.TokenCache
import Placeholder.Proofs.WrittenTemplate

/-!
# Lenient translation

Where no placeholder can be malformed and the mode is not strict, a translation runs to its end. The
run is a fold that notes the outcome of each token, and the four lists it builds are read off the
tokens one by one. Replacements are looked up under the text of the token, which is the trimmed
content that substitution looks for; so every placeholder gets its own text, however it is padded
and however often it occurs, and that text is not scanned again.
-/

namespace Placeholder

namespace Pipeline

def NeverMalformed (p : Pipeline) : Prop :=
  ∀ r ∈ p.resolvers, ∀ t c e, r.resolve t c = .error e → e.isMalformed = false

theorem NeverMalformed.resolve {p : Pipeline} (h : p.NeverMalformed) {t : Token} {c : Context}
    {e : Failure} (he : p.resolve t c = .error e) : e.isMalformed = false := by
  unfold Pipeline.resolve at he
  cases hfind : p.resolverFor? t c with
  | some r =>
    rw [hfind] at he
    exact h r (List.mem_of_find?_eq_some hfind) t c e he
  | none =>
    rw [hfind] at he
    cases he
    rfl

/-! ### The fold over the tokens -/

def note (p : Pipeline) (keep : Bool) (c : Context) (f : Findings) (t : Token) : Findings :=
  match p.resolve t c with
  | .ok v => f.resolve t.raw v
  | .error e => f.miss keep t.raw e.message

theorem find_eq_note {p : Pipeline} (h : p.NeverMalformed) {c : Context} (hc : c.strict = false)
    (keep : Bool) (f : Findings) (t : Token) : p.find keep c f t = .ok (p.note keep c f t) := by
  unfold find note
  cases hresolve : p.resolve t c with
  | ok v => rfl
  | error e => simp only [h.resolve hresolve, hc, Bool.false_eq_true, if_false]

theorem foldlM_find {p : Pipeline} (h : p.NeverMalformed) {c : Context} (hc : c.strict = false)
    (keep : Bool) (tokens : List Token) (f : Findings) :
    tokens.foldlM (p.find keep c) f = .ok (tokens.foldl (p.note keep c) f) := by
  induction tokens generalizing f with
  | nil => rfl
  | cons t tokens ih =>
    rw [List.foldlM_cons, find_eq_note h hc, List.foldl_cons, ← ih]
    rfl

def failure? (p : Pipeline) (c : Context) (t : Token) : Option (String × String) :=
  match p.resolve t c with
  | .ok _ => none
  | .error e => some (t.raw, e.message)

def value? (p : Pipeline) (c : Context) (t : Token) : Option (String × Value) :=
  match p.resolve t c with
  | .ok v => some (t.raw, v)
  | .error _ => none

theorem missing_foldl_note (p : Pipeline) (keep : Bool) (c : Context) (tokens : List Token)
    (f : Findings) :
    (tokens.foldl (p.note keep c) f).missing =
      f.missing ++ (tokens.filterMap (p.failure? c)).map Prod.fst := by
  induction tokens generalizing f with
  | nil => simp
  | cons t tokens ih =>
    rw [List.foldl_cons, ih]
    unfold note
    cases hresolve : p.resolve t c with
    | ok v => simp [Findings.resolve, failure?, hresolve]
    | error e => simp [Findings.miss, failure?, hresolve]

theorem warnings_foldl_note (p : Pipeline) (keep : Bool) (c : Context) (tokens : List Token)
    (f : Findings) :
    (tokens.foldl (p.note keep c) f).warnings =
      f.warnings ++ (tokens.filterMap (p.failure? c)).map Prod.snd := by
  induction tokens generalizing f with
  | nil => simp
  | cons t tokens ih =>
    rw [List.foldl_cons, ih]
    unfold note
    cases hresolve : p.resolve t c with
    | ok v => simp [Findings.resolve, failure?, hresolve]
    | error e => simp [Findings.miss, failure?, hresolve]

theorem resolved_foldl_note (p : Pipeline) (keep : Bool) (c : Context) (tokens : List Token)
    (f : Findings) :
    (tokens.foldl (p.note keep c) f).resolved =
      f.resolved.insertAll (tokens.filterMap (p.value? c)) := by
  induction tokens generalizing f with
  | nil => rfl
  | cons t tokens ih =>
    rw [List.foldl_cons, ih]
    unfold note
    cases hresolve : p.resolve t c with
    | ok v => simp [Findings.resolve, value?, hresolve, Entries.insertAll]
    | error e => simp [Findings.miss, value?, hresolve]

/-! ### Replacements -/

/-- The text for the placeholder of a token; none for one that stays as it is. -/
def replacementFor (p : Pipeline) (keep : Bool) (c : Context) (t : Token) : Option String :=
  match p.resolve t c with
  | .ok v => some v.templateText
  | .error _ => if keep then none else some ""

theorem replacements_note (p : Pipeline) (keep : Bool) (c : Context) (f : Findings) (t : Token) :
    (p.note keep c f t).replacements = f.replacements.insert t.raw (p.replacementFor keep c t) := by
  unfold note replacementFor
  cases p.resolve t c <;> rfl

/-- What is noted for a content stays, since all tokens with the same text are the same. -/
theorem get?_replacements_foldl_note (p : Pipeline) (keep : Bool) (c : Context)
    (contents : List (List Char)) (htrimmed : ∀ content ∈ contents, Text.Trimmed content)
    (f : Findings) (content : List Char) :
    ((contents.map Token.classify).foldl (p.note keep c) f).replacements.get?
        (String.ofList content) =
      if content ∈ contents then some (p.replacementFor keep c (Token.classify content))
      else f.replacements.get? (String.ofList content) := by
  induction contents generalizing f with
  | nil => simp
  | cons first contents ih =>
    rw [List.forall_mem_cons] at htrimmed
    rw [List.map_cons, List.foldl_cons, ih htrimmed.2, replacements_note, Token.raw_classify,
      htrimmed.1]
    by_cases hmem : content ∈ contents
    · simp [hmem]
    · by_cases heq : content = first
      · simp [heq, Entries.get?_insert_self]
      · have hraw : String.ofList content ≠ String.ofList first :=
          fun h => heq (String.ofList_injective h)
        simp [hmem, heq, Entries.get?_insert_of_ne hraw]

end Pipeline

namespace Template

def Part.translation (p : Pipeline) (keep : Bool) (c : Context) : Part → List Char
  | literal text => text
  | placeholder before content after =>
    match p.resolve (Token.classify content) c with
    | .ok v => v.templateText.toList
    | .error _ => if keep then embrace (before ++ content ++ after) else []

/-- The content of a placeholder that fails, with the reason. -/
def Part.failure? (p : Pipeline) (c : Context) : Part → Option (String × String)
  | literal _ => none
  | placeholder _ content _ =>
    match p.resolve (Token.classify content) c with
    | .ok _ => none
    | .error e => some (String.ofList content, e.message)

/-- The content of a placeholder that does not fail, with its value. -/
def Part.value? (p : Pipeline) (c : Context) : Part → Option (String × Value)
  | literal _ => none
  | placeholder _ content _ =>
    match p.resolve (Token.classify content) c with
    | .ok v => some (String.ofList content, v)
    | .error _ => none

theorem writtenContents_trimmed {parts : List Part} (h : WellWritten parts) :
    ∀ content ∈ writtenContents parts, Text.Trimmed content := by
  intro content hcontent
  obtain ⟨part, hpart, heq⟩ := List.mem_filterMap.mp hcontent
  cases part with
  | literal text => contradiction
  | placeholder before content' after =>
    obtain ⟨_, _, _, htrimmed, _⟩ := h _ hpart
    cases heq
    exact htrimmed

theorem raw_classify_of_wellFormed {before content after : List Char}
    (h : (Part.placeholder before content after).WellFormed) :
    (Token.classify content).raw = String.ofList content := by
  obtain ⟨_, _, _, htrimmed, _⟩ := h
  rw [Token.raw_classify, htrimmed]

theorem failures_written (p : Pipeline) (c : Context) {parts : List Part} (h : WellWritten parts) :
    ((writtenContents parts).map Token.classify).filterMap (p.failure? c) =
      parts.filterMap (Part.failure? p c) := by
  rw [writtenContents, List.filterMap_map, List.filterMap_filterMap]
  refine List.filterMap_congr fun part hpart => ?_
  cases part with
  | literal text => rfl
  | placeholder before content after =>
    simp only [Part.content?, Part.failure?, Option.bind_some, Function.comp_apply,
      Pipeline.failure?, raw_classify_of_wellFormed (h _ hpart)]

theorem values_written (p : Pipeline) (c : Context) {parts : List Part} (h : WellWritten parts) :
    ((writtenContents parts).map Token.classify).filterMap (p.value? c) =
      parts.filterMap (Part.value? p c) := by
  rw [writtenContents, List.filterMap_map, List.filterMap_filterMap]
  refine List.filterMap_congr fun part hpart => ?_
  cases part with
  | literal text => rfl
  | placeholder before content after =>
    simp only [Part.content?, Part.value?, Option.bind_some, Function.comp_apply,
      Pipeline.value?, raw_classify_of_wellFormed (h _ hpart)]

theorem substitute_written (p : Pipeline) (keep : Bool) (c : Context) (parts : List Part)
    (h : WellWritten parts) (replacement : String → Option String)
    (hreplacement : ∀ content ∈ writtenContents parts,
      replacement (String.ofList content) = p.replacementFor keep c (Token.classify content)) :
    substitute (String.ofList (written parts)) replacement =
      String.ofList (parts.flatMap (Part.translation p keep c)) := by
  rw [substitute, String.toList_ofList, scan_written parts h, List.flatMap_assoc]
  congr 1
  refine List.flatMap_congr fun part hpart => ?_
  cases part with
  | literal text => simp [Part.pieces, Part.translation, List.flatMap_map, substitutePiece]
  | placeholder before content after =>
    have hmem : content ∈ writtenContents parts := List.mem_filterMap.mpr ⟨_, hpart, rfl⟩
    simp only [Part.pieces, Part.translation, List.flatMap_cons, List.flatMap_nil, List.append_nil,
      substitutePiece, (h _ hpart).trim_padded, hreplacement content hmem, Pipeline.replacementFor]
    cases p.resolve (Token.classify content) c with
    | ok v => rfl
    | error e => cases keep <;> rfl

theorem literal_of_hasDoubleBraces_eq_false {parts : List Part}
    (h : Translator.hasDoubleBraces (written parts) = false) :
    ∀ part ∈ parts, ∃ text, part = .literal text := by
  intro part hpart
  cases part with
  | literal text => exact ⟨text, rfl⟩
  | placeholder before content after =>
    obtain ⟨front, back, rfl⟩ := List.append_of_mem hpart
    have hinfix : ['\x7b', '\x7b'] <:+:
        written (front ++ .placeholder before content after :: back) := by
      refine ⟨written front, before ++ content ++ after ++ ['\x7d', '\x7d'] ++ written back, ?_⟩
      simp [written, Part.text, embrace]
    simp [Translator.hasDoubleBraces, (Text.occurs_iff _ _).mpr hinfix] at h

theorem literal_parts {parts : List Part} (h : ∀ part ∈ parts, ∃ text, part = .literal text)
    (p : Pipeline) (keep : Bool) (c : Context) :
    writtenContents parts = [] ∧ parts.flatMap (Part.translation p keep c) = written parts ∧
      parts.filterMap (Part.failure? p c) = [] ∧ parts.filterMap (Part.value? p c) = [] := by
  refine ⟨List.filterMap_eq_nil_iff.mpr fun part hpart => ?_,
    List.flatMap_congr fun part hpart => ?_, List.filterMap_eq_nil_iff.mpr fun part hpart => ?_,
    List.filterMap_eq_nil_iff.mpr fun part hpart => ?_⟩ <;>
  · obtain ⟨text, rfl⟩ := h part hpart
    rfl

/-- The translation of a written template whose placeholders are resolved one by one. -/
def translationOf (p : Pipeline) (keep : Bool) (c : Context) (parts : List Part) : Translation where
  template := String.ofList (written parts)
  translated := some (String.ofList (parts.flatMap (Part.translation p keep c)))
  tokens := (writtenContents parts).map Token.classify
  resolved := Entries.ofList (parts.filterMap (Part.value? p c))
  missing := (parts.filterMap (Part.failure? p c)).map Prod.fst
  warnings := (parts.filterMap (Part.failure? p c)).map Prod.snd

theorem translateTokens_written {p : Pipeline} (hp : p.NeverMalformed) {c : Context}
    (hc : c.strict = false) (keep : Bool) {parts : List Part} (h : WellWritten parts) :
    p.translateTokens keep (String.ofList (written parts))
        ((writtenContents parts).map Token.classify) c =
      .ok (translationOf p keep c parts) := by
  have hreplacement : ∀ content ∈ writtenContents parts,
      (((writtenContents parts).map Token.classify).foldl (p.note keep c) {}).replacement
          (String.ofList content) =
        p.replacementFor keep c (Token.classify content) := by
    intro content hcontent
    rw [Findings.replacement,
      Pipeline.get?_replacements_foldl_note p keep c _ (writtenContents_trimmed h),
      if_pos hcontent]
    rfl
  rw [Pipeline.translateTokens, Pipeline.foldlM_find hp hc]
  simp only [substitute_written p keep c parts h _ hreplacement, Pipeline.missing_foldl_note,
    Pipeline.warnings_foldl_note, Pipeline.resolved_foldl_note, failures_written p c h,
    values_written p c h, Translation.success, List.nil_append]
  rfl

end Template

namespace Translator

/-- A lenient translation of a written template: the literal text is kept, every placeholder gives
way to the text of the value that the pipeline has for its content, and a placeholder without a value
becomes empty or stays as it is written. The tokens are the contents in their order, and the lists of
missing placeholders and of warnings name exactly the failing ones in their order. -/
theorem translate_written (tr : Translator) (htr : tr.Reachable)
    (hp : tr.pipeline.NeverMalformed) (now : Nat) (parts : List Template.Part)
    (h : Template.WellWritten parts) (c : Context) (hc : c.strict = false) :
    (tr.translate now (String.ofList (Template.written parts)) c).1 =
      .ok
        { template := String.ofList (Template.written parts)
          translated := some (String.ofList
            (parts.flatMap (Template.Part.translation tr.pipeline tr.keepUnresolved c)))
          tokens := (Template.writtenContents parts).map Token.classify
          resolved := Entries.ofList (parts.filterMap (Template.Part.value? tr.pipeline c))
          missing := (parts.filterMap (Template.Part.failure? tr.pipeline c)).map Prod.fst
          warnings := (parts.filterMap (Template.Part.failure? tr.pipeline c)).map Prod.snd } := by
  rw [htr.translate_eq, String.toList_ofList]
  cases hbraces : hasDoubleBraces (Template.written parts) with
  | true =>
    rw [if_pos rfl, Template.parse_written parts h]
    exact Template.translateTokens_written hp hc tr.keepUnresolved h
  | false =>
    obtain ⟨hcontents, htranslation, hfailures, hvalues⟩ := Template.literal_parts
      (Template.literal_of_hasDoubleBraces_eq_false hbraces) tr.pipeline tr.keepUnresolved c
    rw [htranslation, hcontents, hfailures, hvalues]
    rfl

/-- A letter with a placeholder that occurs twice, padded in two ways, and one that fails. -/
def letter : List Template.Part :=
  [.literal "Dear ".toList, .placeholder [' '] "$who".toList [], .literal ", ".toList,
    .placeholder [] "$who".toList ['\n', ' '], .literal ": ".toList,
    .placeholder [' '] "2 + 2".toList [' ', ' ']]

/-- A translator that knows variables alone and keeps what it cannot resolve. -/
def letterWriter : Translator :=
  { pipeline := ⟨[Resolver.contextVariable]⟩, cache := .empty, keepUnresolved := true }

def letterContext : Context :=
  ((Context.empty).withVariable "who" (.string "\x7b\x7b$who\x7d\x7d")).withStrict false

theorem letterWriter_neverMalformed : letterWriter.pipeline.NeverMalformed := by
  intro r hr t c e he
  rw [letterWriter, List.mem_singleton] at hr
  subst hr
  cases he

theorem translate_letter :
    Reachable letterWriter ∧ Template.WellWritten letter ∧ letterContext.strict = false ∧
      ((letterWriter.translate 0 (String.ofList (Template.written letter)) letterContext).1.map
          fun t => (t.translated, t.tokens.map Token.raw, t.missing)) =
        .ok (some "Dear \x7b\x7b$who\x7d\x7d, \x7b\x7b$who\x7d\x7d: \x7b\x7b 2 + 2  \x7d\x7d",
          ["$who", "$who", "2 + 2"], ["2 + 2"]) := by
  have hreach : Reachable letterWriter := .start (.inr rfl)
  have hwell : Template.WellWritten letter := by decide
  refine ⟨hreach, hwell, rfl, ?_⟩
  rw [translate_written letterWriter hreach letterWriter_neverMalformed 0 letter hwell letterContext
    rfl]
  rfl

end Translator

end Placeholder
