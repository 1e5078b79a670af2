import Mathlib
import Placeholder.Proofs.HiddenAttributes
import Placeholder.Proofs.TokenCache
import Placeholder.Proofs.WrittenTemplate

/-!
# What a template discloses

Two translations of one template over models that agree off the hidden names go side by side: as long
as no token uncovers something hidden, every token has the same outcome in both, and so has the
translation.
-/

namespace Placeholder

/-! ### Findings side by side -/

namespace Value

theorem entriesToJson_insert (key : String) (v : Value) (entries : Entries Value) :
    entriesToJson (entries.insert key v) = Entries.insert key v.toJson (entriesToJson entries) := by
  induction entries with
  | nil => rfl
  | cons e entries ih =>
    obtain ⟨k, u⟩ := e
    by_cases hk : k = key
    · simp only [Entries.insert, hk, if_true, entriesToJson]
    · simp only [Entries.insert, if_neg hk, entriesToJson, ih]

theorem get?_entriesToJson (entries : Entries Value) (key : String) :
    Entries.get? (entriesToJson entries) key = (entries.get? key).map toJson := by
  induction entries with
  | nil => rfl
  | cons e entries ih =>
    obtain ⟨k, u⟩ := e
    rw [entriesToJson, Entries.get?_cons, Entries.get?_cons, ih]
    split <;> rfl

end Value

/-- Findings that differ at most in the identities of the resolved values. -/
structure Findings.Twin (f g : Findings) : Prop where
  replacements : f.replacements = g.replacements
  resolved : Value.entriesToJson f.resolved = Value.entriesToJson g.resolved
  missing : f.missing = g.missing
  warnings : f.warnings = g.warnings

theorem Findings.Twin.resolve {f g : Findings} (h : f.Twin g) {v w : Value} (hvw : v.Twin w)
    (raw : String) : (f.resolve raw v).Twin (g.resolve raw w) where
  replacements := by
    rw [Findings.resolve, Findings.resolve, h.replacements, hvw.templateText_eq]
  resolved := by
    simp only [Findings.resolve, Value.entriesToJson_insert, h.resolved, hvw.toJson_eq]
  missing := h.missing
  warnings := h.warnings

theorem Findings.Twin.miss {f g : Findings} (h : f.Twin g) (keep : Bool) (raw reason : String) :
    (f.miss keep raw reason).Twin (g.miss keep raw reason) where
  replacements := by rw [Findings.miss, Findings.miss, h.replacements]
  resolved := h.resolved
  missing := by rw [Findings.miss, Findings.miss, h.missing]
  warnings := by rw [Findings.miss, Findings.miss, h.warnings]

namespace Pipeline

variable {p : Pipeline} {keep : Bool} {c d : Context}

theorem find_twin {t : Token} (hstrict : c.strict = d.strict)
    (ht : Matches Value.Twin (p.resolve t c) (p.resolve t d)) {f g : Findings} (h : f.Twin g) :
    Matches Findings.Twin (p.find keep c f t) (p.find keep d g t) := by
  unfold find
  generalize p.resolve t c = x at ht
  generalize p.resolve t d = y at ht
  cases ht with
  | ok hvw => exact .ok (h.resolve hvw t.raw)
  | error e =>
    simp only [hstrict]
    split
    · exact .error _
    · split
      · exact .error _
      · exact .ok (h.miss keep t.raw e.message)

theorem find_matches {t : Token} (hstrict : c.strict = d.strict)
    (ht : Matches (fun _ _ => True) (p.resolve t c) (p.resolve t d)) (f g : Findings) :
    Matches (fun _ _ => True) (p.find keep c f t) (p.find keep d g t) := by
  unfold find
  generalize p.resolve t c = x at ht
  generalize p.resolve t d = y at ht
  cases ht with
  | ok hvw => exact .ok trivial
  | error e =>
    simp only [hstrict]
    split
    · exact .error _
    · split
      · exact .error _
      · exact .ok trivial

theorem translateTokens_twin {tokens : List Token} (hstrict : c.strict = d.strict)
    (htokens : ∀ t ∈ tokens, Matches Value.Twin (p.resolve t c) (p.resolve t d))
    (template : String) :
    (p.translateTokens keep template tokens c).map Translation.toJson =
      (p.translateTokens keep template tokens d).map Translation.toJson := by
  have hfold : Matches Findings.Twin (tokens.foldlM (p.find keep c) {})
      (tokens.foldlM (p.find keep d) {}) :=
    .foldlM ⟨rfl, rfl, rfl, rfl⟩ fun t ht f g hfg => find_twin hstrict (htokens t ht) hfg
  unfold translateTokens
  generalize tokens.foldlM (p.find keep c) {} = x at hfold
  generalize tokens.foldlM (p.find keep d) {} = y at hfold
  cases hfold with
  | error e => rfl
  | @ok f g hfg =>
    have hreplacement : f.replacement = g.replacement := by
      funext content
      rw [Findings.replacement, Findings.replacement, hfg.replacements]
    simp only [Except.map, Translation.toJson, Translation.success, Translation.succeeded,
      Translation.failureReason, hreplacement, hfg.resolved, hfg.missing, hfg.warnings]
    rfl

end Pipeline

/-- The tokens whose values a translation of the template asks for. -/
def Template.tokens (template : String) : List Token :=
  if Translator.hasDoubleBraces template.toList then (parse template).toOption.getD [] else []

/-- What a translation of a template does, from the tokens of the template. -/
theorem Translator.Reachable.translate_cases {tr : Translator} (h : tr.Reachable) (now : Nat)
    (template : String) :
    (∀ c, (tr.translate now template c).1 =
      tr.pipeline.translateTokens tr.keepUnresolved template (Template.tokens template) c) ∨
    Template.tokens template = [] ∧
      ∃ outcome, ∀ c, (tr.translate now template c).1 = outcome := by
  cases hbraces : Translator.hasDoubleBraces template.toList with
  | false =>
    refine Or.inr ⟨?_, .ok (.success template template), fun c => ?_⟩
    · rw [Template.tokens, hbraces, if_neg (by decide)]
    · rw [h.translate_eq, hbraces, if_neg (by decide)]
  | true =>
    cases hparse : Template.parse template with
    | ok tokens =>
      refine Or.inl fun c => ?_
      rw [h.translate_eq, Template.tokens, hbraces, if_pos rfl, if_pos rfl, hparse]
      rfl
    | error e =>
      refine Or.inr ⟨?_, .error (.grammar e), fun c => ?_⟩
      · rw [Template.tokens, hbraces, if_pos rfl, hparse]
        rfl
      · rw [h.translate_eq, hbraces, if_pos rfl, hparse]

end Placeholder
