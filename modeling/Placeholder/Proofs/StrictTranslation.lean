import Mathlib
import Placeholder.Proofs.HiddenAttributes
import Placeholder.Proofs.LenientTranslation

/-!
# Strict and lenient translation

The strict and the lenient translation of a template are two views of one run over its tokens. Up to
the first placeholder without a value both note the same findings. There the strict run ends, and
the lenient one goes on with that placeholder as its first warning; only a malformed placeholder
further on can still end it.
-/

namespace Placeholder

namespace Pipeline

/-- The outcome of a token does not depend on the mode. -/
def IgnoresMode (p : Pipeline) : Prop :=
  ∀ t c strict, p.resolve t (c.withStrict strict) = p.resolve t c

theorem standard_ignoresMode (k : Clock) (functions : HostFunctions) (formatters : Formatters) :
    (standard k functions formatters).IgnoresMode := by
  intro t c strict
  unfold resolve
  rw [resolverFor?_standard t (c.withStrict strict) c]
  cases hfind : (standard k functions formatters).resolverFor? t c with
  | none => rfl
  | some r =>
    have hr := mem_standard.mp (List.mem_of_find?_eq_some hfind)
    simp only [standardResolvers, Resolver.defaults, List.cons_append, List.nil_append,
      List.mem_cons, List.not_mem_nil, or_false] at hr
    rcases hr with rfl | rfl | rfl | rfl | rfl | rfl | rfl | rfl | rfl | rfl <;> rfl

/-! ### The outcome of one token in the two modes -/

section Modes

variable {p : Pipeline} {keep : Bool} {c : Context} {f : Findings} {t : Token}

theorem find_of_ok {v : Value} (h : p.resolve t c = .ok v) :
    p.find keep c f t = .ok (f.resolve t.raw v) := by
  simp only [find, h]

theorem find_of_malformed {e : Failure} (h : p.resolve t c = .error e) (he : e.isMalformed = true) :
    p.find keep c f t = .error (.malformed e) := by
  simp only [find, h, he, if_true]

theorem find_of_unresolved {e : Failure} (h : p.resolve t c = .error e)
    (he : e.isMalformed = false) :
    p.find keep c f t =
      if c.strict then .error (.unresolved t.raw e) else .ok (f.miss keep t.raw e.message) := by
  simp only [find, h, he, Bool.false_eq_true, if_false]

/-! ### The lenient run -/

/-- A token of the list is malformed with this error. -/
def Spoils (p : Pipeline) (c : Context) (tokens : List Token) (e : Failure) : Prop :=
  ∃ t ∈ tokens, p.resolve t c = .error e ∧ e.isMalformed = true

/-- Findings that go on from others. -/
def Extends (f g : Findings) : Prop :=
  f.missing <+: g.missing ∧ f.warnings <+: g.warnings

theorem Extends.trans {f g h : Findings} (hfg : Extends f g) (hgh : Extends g h) : Extends f h :=
  ⟨hfg.1.trans hgh.1, hfg.2.trans hgh.2⟩

theorem extends_miss (f : Findings) (keep : Bool) (raw reason : String) :
    Extends f (f.miss keep raw reason) :=
  ⟨List.prefix_append _ _, List.prefix_append _ _⟩

/-- A lenient run over tokens ends with findings that go on from those at its start, or at a
malformed token. -/
theorem foldlM_lenient (hc : c.strict = false) (tokens : List Token) (f : Findings) :
    (∃ g, tokens.foldlM (p.find keep c) f = .ok g ∧ Extends f g) ∨
      ∃ e, tokens.foldlM (p.find keep c) f = .error (.malformed e) ∧ p.Spoils c tokens e := by
  induction tokens generalizing f with
  | nil => exact Or.inl ⟨f, rfl, List.prefix_rfl, List.prefix_rfl⟩
  | cons t tokens ih =>
    rw [List.foldlM_cons]
    have hgo : ∀ g, p.find keep c f t = .ok g → Extends f g →
        (∃ h, (p.find keep c f t >>= fun g => tokens.foldlM (p.find keep c) g) = .ok h ∧
            Extends f h) ∨
          ∃ e, (p.find keep c f t >>= fun g => tokens.foldlM (p.find keep c) g) =
              .error (.malformed e) ∧ p.Spoils c (t :: tokens) e := by
      intro g hg hfg
      rw [hg]
      rcases ih g with ⟨h, hrun, hgh⟩ | ⟨e, hrun, u, hu, hspoils⟩
      · exact Or.inl ⟨h, hrun, hfg.trans hgh⟩
      · exact Or.inr ⟨e, hrun, u, List.mem_cons_of_mem t hu, hspoils⟩
    cases hresolve : p.resolve t c with
    | ok v => exact hgo _ (find_of_ok hresolve) ⟨List.prefix_rfl, List.prefix_rfl⟩
    | error e =>
      cases he : e.isMalformed with
      | true =>
        right
        refine ⟨e, ?_, t, List.mem_cons_self, hresolve, he⟩
        rw [find_of_malformed hresolve he]
        rfl
      | false =>
        refine hgo _ ?_ (extends_miss f keep t.raw e.message)
        rw [find_of_unresolved hresolve he, hc]
        rfl

/-! ### The two runs side by side -/

/-- What a strict and a lenient run over the same tokens and from the same findings give. -/
inductive Views (p : Pipeline) (c : Context) (tokens : List Token) (f : Findings) :
    Except Interruption Findings → Except Interruption Findings → Prop where
  | done {g : Findings} : g.missing = f.missing → g.warnings = f.warnings →
      Views p c tokens f (.ok g) (.ok g)
  | malformed (e : Failure) :
      Views p c tokens f (.error (.malformed e)) (.error (.malformed e))
  | warned {raw : String} {e : Failure} {g : Findings} : f.missing ++ [raw] <+: g.missing →
      f.warnings ++ [e.message] <+: g.warnings →
      Views p c tokens f (.error (.unresolved raw e)) (.ok g)
  | spoilt {front back : List Token} {t : Token} {e e' : Failure} : tokens = front ++ t :: back →
      p.resolve t c = .error e → p.Spoils c back e' →
      Views p c tokens f (.error (.unresolved t.raw e)) (.error (.malformed e'))

theorem Views.cons {tokens : List Token} {g : Findings} {x y : Except Interruption Findings}
    (h : Views p c tokens g x y) (hmissing : g.missing = f.missing)
    (hwarnings : g.warnings = f.warnings) : Views p c (t :: tokens) f x y := by
  cases h with
  | done hm hw => exact .done (hm.trans hmissing) (hw.trans hwarnings)
  | malformed e => exact .malformed e
  | warned hm hw => exact .warned (hmissing ▸ hm) (hwarnings ▸ hw)
  | @spoilt front back u e e' htokens hu hspoils =>
    have hsplit : t :: tokens = (t :: front) ++ u :: back := by rw [htokens, List.cons_append]
    exact .spoilt hsplit hu hspoils

theorem foldlM_views (hp : p.IgnoresMode) (keep : Bool) (c : Context) (tokens : List Token)
    (f : Findings) :
    Views p c tokens f (tokens.foldlM (p.find keep (c.withStrict true)) f)
      (tokens.foldlM (p.find keep (c.withStrict false)) f) := by
  induction tokens generalizing f with
  | nil => exact .done rfl rfl
  | cons t tokens ih =>
    rw [List.foldlM_cons, List.foldlM_cons]
    have hmode : ∀ strict, p.resolve t (c.withStrict strict) = p.resolve t c := hp t c
    cases hresolve : p.resolve t c with
    | ok v =>
      rw [find_of_ok ((hmode true).trans hresolve), find_of_ok ((hmode false).trans hresolve)]
      exact (ih (f.resolve t.raw v)).cons rfl rfl
    | error e =>
      have hstrict := (hmode true).trans hresolve
      have hlenient := (hmode false).trans hresolve
      cases he : e.isMalformed with
      | true =>
        rw [find_of_malformed hstrict he, find_of_malformed hlenient he]
        exact .malformed e
      | false =>
        rw [find_of_unresolved hstrict he, find_of_unresolved hlenient he]
        -- The strict run ends here; what the lenient one finds from here on is not compared.
        have hrest := @foldlM_lenient p keep (c.withStrict false) rfl tokens
          (f.miss keep t.raw e.message)
        rcases hrest with ⟨g, hrun, hmissing, hwarnings⟩ | ⟨e', hrun, hspoils⟩
        · have hviews : Views p c (t :: tokens) f (.error (.unresolved t.raw e)) (.ok g) :=
            .warned hmissing hwarnings
          rwa [← hrun] at hviews
        · obtain ⟨u, hu, hspoilt, hmalformed⟩ := hspoils
          have hsplit : t :: tokens = [] ++ t :: tokens := rfl
          have hviews : Views p c (t :: tokens) f (.error (.unresolved t.raw e))
              (.error (.malformed e')) :=
            .spoilt hsplit hresolve ⟨u, hu, (hp u c false).symm.trans hspoilt, hmalformed⟩
          rwa [← hrun] at hviews

end Modes

/-! ### The translations that come of the two runs -/

theorem translateTokens_of_ok {p : Pipeline} {keep : Bool} {c : Context} {tokens : List Token}
    {g : Findings} (h : tokens.foldlM (p.find keep c) {} = .ok g) (template : String) :
    ∃ x, p.translateTokens keep template tokens c = .ok x ∧ x.succeeded = true ∧
      x.missing = g.missing ∧ x.warnings = g.warnings := by
  unfold translateTokens
  rw [h]
  exact ⟨_, rfl, rfl, rfl, rfl⟩

theorem translateTokens_of_unresolved {p : Pipeline} {keep : Bool} {c : Context}
    {tokens : List Token} {raw : String} {e : Failure}
    (h : tokens.foldlM (p.find keep c) {} = .error (.unresolved raw e)) (template : String) :
    p.translateTokens keep template tokens c = .ok (.failed template [raw] [e.message]) := by
  unfold translateTokens
  rw [h]

theorem translateTokens_of_malformed {p : Pipeline} {keep : Bool} {c : Context}
    {tokens : List Token} {e : Failure}
    (h : tokens.foldlM (p.find keep c) {} = .error (.malformed e)) (template : String) :
    p.translateTokens keep template tokens c = .error e := by
  unfold translateTokens
  rw [h]

end Pipeline

/-- What a strict translation of the tokens gives beside what a lenient one gives. -/
inductive Translation.Views (p : Pipeline) (c : Context) (tokens : List Token) :
    Except Failure Translation → Except Failure Translation → Prop where
  | clean {x : Translation} : x.succeeded = true → x.warnings = [] →
      Views p c tokens (.ok x) (.ok x)
  | malformed (e : Failure) : Views p c tokens (.error e) (.error e)
  | warned {template raw reason : String} {y : Translation} : y.succeeded = true →
      y.missing.head? = some raw → y.warnings.head? = some reason →
      Views p c tokens (.ok (.failed template [raw] [reason])) (.ok y)
  | spoilt {template : String} {front back : List Token} {t : Token} {e e' : Failure} :
      tokens = front ++ t :: back → p.resolve t c = .error e → p.Spoils c back e' →
      Views p c tokens (.ok (.failed template [t.raw] [e.message])) (.error e')

namespace Translation.Views

variable {p : Pipeline} {c : Context} {tokens : List Token}
  {strict lenient : Except Failure Translation} (h : Views p c tokens strict lenient)
include h

theorem eq_of_succeeded {x : Translation} (hx : strict = .ok x) (hsucceeded : x.succeeded = true) :
    lenient = .ok x ∧ x.hasWarnings = false := by
  cases h with
  | clean _ hwarnings =>
    cases hx
    exact ⟨rfl, by rw [hasWarnings, hwarnings]; rfl⟩
  | malformed e => cases hx
  | warned =>
    cases hx
    cases hsucceeded
  | spoilt =>
    cases hx
    cases hsucceeded

theorem strict_of_no_warnings {y : Translation} (hy : lenient = .ok y)
    (hclean : y.hasWarnings = false) : strict = .ok y ∧ y.succeeded = true := by
  cases h with
  | clean hsucceeded _ =>
    cases hy
    exact ⟨rfl, hsucceeded⟩
  | malformed e => cases hy
  | warned _ _ hwarnings =>
    cases hy
    rw [hasWarnings, Bool.not_eq_false', List.isEmpty_iff] at hclean
    rw [hclean] at hwarnings
    cases hwarnings
  | spoilt => cases hy

theorem of_failed {x : Translation} (hx : strict = .ok x) (hfailed : x.succeeded = false) :
    ∃ raw reason, x.missing = [raw] ∧ x.errors = [reason] ∧
      ((∃ y, lenient = .ok y ∧ y.missing.head? = some raw ∧ y.warnings.head? = some reason) ∨
        ∃ front t back u e, tokens = front ++ t :: back ∧ t.raw = raw ∧ u ∈ back ∧
          p.resolve u c = .error e ∧ e.isMalformed = true ∧ lenient = .error e) := by
  cases h with
  | clean hsucceeded _ =>
    cases hx
    rw [hsucceeded] at hfailed
    cases hfailed
  | malformed e => cases hx
  | @warned template raw reason y _ hmissing hwarnings =>
    cases hx
    exact ⟨raw, reason, rfl, rfl, Or.inl ⟨y, rfl, hmissing, hwarnings⟩⟩
  | @spoilt template front back t e e' hsplit _ hspoils =>
    cases hx
    obtain ⟨u, hu, hmalformed, he'⟩ := hspoils
    exact ⟨t.raw, e.message, rfl, rfl,
      Or.inr ⟨front, t, back, u, e', hsplit, rfl, hu, hmalformed, he', rfl⟩⟩

theorem of_error {e : Failure} (he : strict = .error e) : lenient = .error e := by
  cases h with
  | malformed e => exact he
  | clean => cases he
  | warned => cases he
  | spoilt => cases he

theorem lenient_succeeded {y : Translation} (hy : lenient = .ok y) : y.succeeded = true := by
  cases h with
  | clean hsucceeded _ =>
    cases hy
    exact hsucceeded
  | malformed e => cases hy
  | warned hsucceeded _ _ =>
    cases hy
    exact hsucceeded
  | spoilt => cases hy

end Translation.Views

theorem head?_of_singleton_prefix {α : Type} {a : α} {as : List α} (h : [a] <+: as) :
    as.head? = some a := by
  obtain ⟨rest, rfl⟩ := h
  rfl

namespace Pipeline

theorem translateTokens_views {p : Pipeline} (hp : p.IgnoresMode) (keep : Bool) (template : String)
    (tokens : List Token) (c : Context) :
    Translation.Views p c tokens (p.translateTokens keep template tokens (c.withStrict true))
      (p.translateTokens keep template tokens (c.withStrict false)) := by
  have hviews := foldlM_views hp keep c tokens {}
  generalize hs : tokens.foldlM (p.find keep (c.withStrict true)) {} = strict at hviews
  generalize hl : tokens.foldlM (p.find keep (c.withStrict false)) {} = lenient at hviews
  cases hviews with
  | @done g hmissing hwarnings =>
    obtain ⟨x, hx, hsucceeded, -, hxwarnings⟩ := translateTokens_of_ok hs template
    have hsame : p.translateTokens keep template tokens (c.withStrict false) = .ok x := by
      rw [← hx]
      unfold translateTokens
      rw [hs, hl]
    rw [hx, hsame]
    exact .clean hsucceeded (hxwarnings.trans hwarnings)
  | malformed e =>
    rw [translateTokens_of_malformed hs, translateTokens_of_malformed hl]
    exact .malformed e
  | warned hmissing hwarnings =>
    obtain ⟨y, hy, hsucceeded, hymissing, hywarnings⟩ := translateTokens_of_ok hl template
    rw [translateTokens_of_unresolved hs, hy]
    exact .warned hsucceeded (hymissing ▸ head?_of_singleton_prefix hmissing)
      (hywarnings ▸ head?_of_singleton_prefix hwarnings)
  | spoilt htokens hresolve hspoils =>
    rw [translateTokens_of_unresolved hs, translateTokens_of_malformed hl]
    exact .spoilt htokens hresolve hspoils

end Pipeline

namespace Translator

/-- The translation of a template in a mode, whatever the mode of the context is. -/
def inMode (tr : Translator) (strict : Bool) (now : Nat) (template : String) (c : Context) :
    Except Failure Translation :=
  (tr.translate now template (c.withStrict strict)).1

theorem views_inMode {tr : Translator} (hp : tr.pipeline.IgnoresMode) (now : Nat)
    (template : String) (c : Context) :
    ∃ tokens, Translation.Views tr.pipeline c tokens (tr.inMode true now template c)
        (tr.inMode false now template c) ∧
      ((tr.parse now template).1 = .ok tokens ∨ tokens = []) := by
  unfold inMode
  rw [translate_fst, translate_fst]
  split
  · cases hparse : (tr.parse now template).1 with
    | error e => exact ⟨[], .malformed _, Or.inr rfl⟩
    | ok tokens =>
      exact ⟨tokens, Pipeline.translateTokens_views hp _ template tokens c, Or.inl rfl⟩
  · exact ⟨[], .clean rfl rfl, Or.inr rfl⟩

/-- The strict and the lenient translation of a template tell the same. The strict one succeeds
exactly when the lenient one has no warnings, and then they are equal. Where the strict one has
failed, it names the first missing placeholder and the first warning of the lenient one, or a
malformed placeholder further on has ended the lenient one. An error of the strict one is an error
of the lenient one, and the lenient one is never a failed translation. -/
theorem strict_lenient (tr : Translator) (hp : tr.pipeline.IgnoresMode) (now : Nat)
    (template : String) (c : Context) :
    ((∃ x, tr.inMode true now template c = .ok x ∧ x.succeeded = true) ↔
        ∃ y, tr.inMode false now template c = .ok y ∧ y.hasWarnings = false) ∧
      (∀ x, tr.inMode true now template c = .ok x → x.succeeded = true →
        tr.inMode false now template c = .ok x) ∧
      (∀ x, tr.inMode true now template c = .ok x → x.succeeded = false →
        ∃ raw reason, x.missing = [raw] ∧ x.errors = [reason] ∧
          ((∃ y, tr.inMode false now template c = .ok y ∧ y.missing.head? = some raw ∧
              y.warnings.head? = some reason) ∨
            ∃ front t back u e, (tr.parse now template).1 = .ok (front ++ t :: back) ∧
              t.raw = raw ∧ u ∈ back ∧ tr.pipeline.resolve u c = .error e ∧ e.isMalformed = true ∧
              tr.inMode false now template c = .error e)) ∧
      (∀ e, tr.inMode true now template c = .error e → tr.inMode false now template c = .error e) ∧
      ∀ y, tr.inMode false now template c = .ok y → y.succeeded = true := by
  obtain ⟨tokens, hviews, htokens⟩ := views_inMode hp now template c
  refine ⟨⟨?_, ?_⟩, fun x hx hok => (hviews.eq_of_succeeded hx hok).1, fun x hx hfailed => ?_,
    fun e => hviews.of_error, fun y => hviews.lenient_succeeded⟩
  · rintro ⟨x, hx, hsucceeded⟩
    exact ⟨x, hviews.eq_of_succeeded hx hsucceeded⟩
  · rintro ⟨y, hy, hclean⟩
    exact ⟨y, hviews.strict_of_no_warnings hy hclean⟩
  · obtain ⟨raw, reason, hmissing, herrors, hcases⟩ := hviews.of_failed hx hfailed
    refine ⟨raw, reason, hmissing, herrors, hcases.imp_right ?_⟩
    rintro ⟨front, t, back, u, e, hsplit, hspoilt⟩
    have hparse := htokens.resolve_right (by simp [hsplit])
    exact ⟨front, t, back, u, e, hsplit ▸ hparse, hspoilt⟩

/-- Two placeholders that a translator of variables does not know, with a variable between them. -/
def reminder : String :=
  "\x7b\x7b owner \x7d\x7d owes \x7b\x7b$sum\x7d\x7d since \x7b\x7b2 + 2\x7d\x7d"

def reminderContext : Context :=
  Context.empty.withVariable "sum" (.int 7)

theorem letterWriter_ignoresMode : letterWriter.pipeline.IgnoresMode := by
  intro t c strict
  unfold Pipeline.resolve Pipeline.resolverFor? letterWriter
  cases htakes : Resolver.contextVariable.supports t c with
  | true =>
    have htakes' : Resolver.contextVariable.supports t (c.withStrict strict) = true := htakes
    simp only [List.find?_cons, htakes, htakes']
    rfl
  | false =>
    have htakes' : Resolver.contextVariable.supports t (c.withStrict strict) = false := htakes
    simp only [List.find?_cons, htakes, htakes', List.find?_nil]

theorem strict_lenient_reminder :
    letterWriter.pipeline.IgnoresMode ∧
      letterWriter.inMode true 0 reminder reminderContext =
        .ok (.failed reminder ["owner"] ["No resolver found for token: owner (type: table)"]) ∧
      ∃ y, letterWriter.inMode false 0 reminder reminderContext = .ok y ∧
        y.succeeded = true ∧ y.missing.head? = some "owner" ∧
        y.warnings.head? = some "No resolver found for token: owner (type: table)" := by
  have hstrict : letterWriter.inMode true 0 reminder reminderContext =
      .ok (.failed reminder ["owner"] ["No resolver found for token: owner (type: table)"]) := by
    rfl
  obtain ⟨-, -, hfailed, -, hlenient⟩ :=
    strict_lenient letterWriter letterWriter_ignoresMode 0 reminder reminderContext
  obtain ⟨raw, reason, hmissing, herrors, hcases⟩ := hfailed _ hstrict rfl
  cases hmissing
  cases herrors
  refine ⟨letterWriter_ignoresMode, hstrict, ?_⟩
  rcases hcases with ⟨y, hy, hraw, hreason⟩ | ⟨_, _, _, u, e, _, _, _, hu, hmalformed, _⟩
  · exact ⟨y, hy, hlenient y hy, hraw, hreason⟩
  · rw [letterWriter_neverMalformed.resolve hu] at hmalformed
    cases hmalformed

end Translator

end Placeholder
