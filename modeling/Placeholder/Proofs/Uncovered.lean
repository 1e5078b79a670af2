import Mathlib
import Placeholder.Proofs.ClauseDisclosure

/-!
# Templates that keep what is hidden

The guard of a model keeps what is hidden out of a translation exactly as long as no token uncovers
it. For the converse two values are planted under the hidden name, which give two models that agree
off the hidden names, and the translations over them show different values.
-/

namespace Placeholder

/-! ### Values that a translation shows -/

theorem Token.eq_of_raw_eq {a b : List Char}
    (h : (Token.classify a).raw = (Token.classify b).raw) : Token.classify a = Token.classify b := by
  rw [Token.raw_classify, Token.raw_classify] at h
  have htrim := congrArg String.toList h
  rw [String.toList_ofList, String.toList_ofList] at htrim
  rw [Token.classify, Token.classify, htrim]

theorem Template.eq_of_raw_eq {template : String} {t u : Token} (ht : t ∈ tokens template)
    (hu : u ∈ tokens template) (h : t.raw = u.raw) : t = u := by
  have hclassified : ∀ v ∈ tokens template, ∃ content, v = Token.classify content := by
    intro v hv
    unfold tokens at hv
    split at hv
    · cases hparse : parse template with
      | error e =>
        rw [hparse] at hv
        cases hv
      | ok found =>
        rw [hparse] at hv
        unfold parse at hparse
        cases hcheck : check template with
        | error e =>
          rw [hcheck] at hparse
          cases hparse
        | ok _ =>
          rw [hcheck] at hparse
          cases hparse
          obtain ⟨content, -, hcontent⟩ := List.mem_map.mp hv
          exact ⟨content, hcontent.symm⟩
    · cases hv
  obtain ⟨a, rfl⟩ := hclassified t ht
  obtain ⟨b, rfl⟩ := hclassified u hu
  exact Token.eq_of_raw_eq h

namespace Pipeline

variable {p : Pipeline} {keep : Bool} {c d : Context}

/-- The value of a token is among the resolved values at the end: no other token of the list has
its text, and no step drops a value. -/
theorem resolved_of_foldlM {t : Token} {v : Value} (hv : p.resolve t c = .ok v)
    {tokens : List Token} (htokens : ∀ u ∈ tokens, u.raw = t.raw → u = t) {f g : Findings}
    (hfold : tokens.foldlM (p.find keep c) f = .ok g)
    (h : t ∈ tokens ∨ f.resolved.get? t.raw = some v) : g.resolved.get? t.raw = some v := by
  induction tokens generalizing f with
  | nil =>
    cases hfold
    exact h.resolve_left List.not_mem_nil
  | cons u tokens ih =>
    rw [List.foldlM_cons] at hfold
    cases hstep : p.find keep c f u with
    | error e =>
      rw [hstep] at hfold
      cases hfold
    | ok f' =>
      rw [hstep] at hfold
      refine ih (fun w hw => htokens w (List.mem_cons_of_mem u hw)) hfold ?_
      by_cases hraw : u.raw = t.raw
      · right
        obtain rfl := htokens u List.mem_cons_self hraw
        rw [find, hv] at hstep
        cases hstep
        exact Entries.get?_insert_self u.raw v f.resolved
      · have hne : u ≠ t := fun heq => hraw (congrArg Token.raw heq)
        rcases h with hmem | hold
        · exact Or.inl ((List.mem_cons.mp hmem).resolve_left (Ne.symm hne))
        · right
          unfold find at hstep
          split at hstep
          · cases hstep
            rw [Findings.resolve, Entries.get?_insert_of_ne (Ne.symm hraw), hold]
          · split at hstep
            · cases hstep
            · split at hstep
              · cases hstep
              · cases hstep
                exact hold

theorem exists_foldlM_of_succeeded {tokens : List Token} {template : String} {tl : Translation}
    (h : p.translateTokens keep template tokens c = .ok tl) (hsucceeded : tl.succeeded = true) :
    ∃ f, tokens.foldlM (p.find keep c) {} = .ok f := by
  unfold translateTokens at h
  split at h
  · cases h
  · cases h
    cases hsucceeded
  · rename_i f hf
    exact ⟨f, hf⟩

theorem translateTokens_of_foldlM {tokens : List Token} {f : Findings}
    (h : tokens.foldlM (p.find keep c) {} = .ok f) (template : String) :
    ∃ tl, p.translateTokens keep template tokens c = .ok tl ∧ tl.resolved = f.resolved ∧
      tl.succeeded = true := by
  unfold translateTokens
  rw [h]
  exact ⟨_, rfl, rfl, rfl⟩

/-- Where one of two translations fails and the same tokens fail in both, the outcomes are equal. -/
theorem translateTokens_eq_of_failed {tokens : List Token} {template : String}
    (h : ∀ tl, p.translateTokens keep template tokens c = .ok tl → tl.succeeded = false)
    (hstrict : c.strict = d.strict)
    (htokens : ∀ t, Matches (fun _ _ => True) (p.resolve t c) (p.resolve t d)) :
    p.translateTokens keep template tokens c = p.translateTokens keep template tokens d := by
  have hfold : Matches (fun _ _ => True) (tokens.foldlM (p.find keep c) {})
      (tokens.foldlM (p.find keep d) {}) :=
    .foldlM trivial fun t _ f g _ => find_matches hstrict (htokens t) f g
  cases hc : tokens.foldlM (p.find keep c) {} with
  | ok f =>
    obtain ⟨tl, htl, -, hsucceeded⟩ := translateTokens_of_foldlM hc template
    rw [h tl htl] at hsucceeded
    contradiction
  | error e =>
    rw [hc] at hfold
    generalize hd : tokens.foldlM (p.find keep d) {} = y at hfold
    cases hfold
    rw [translateTokens, translateTokens, hc, hd]

/-- Where a translation succeeds, the translation in another context in which the same tokens fail
shows the value of each token in that context. -/
theorem exists_resolved {template : String} {tl : Translation}
    (h : p.translateTokens keep template (Template.tokens template) c = .ok tl)
    (hsucceeded : tl.succeeded = true) (hstrict : c.strict = d.strict)
    (htokens : ∀ t, Matches (fun _ _ => True) (p.resolve t c) (p.resolve t d)) {t : Token}
    (ht : t ∈ Template.tokens template) {v : Value} (hv : p.resolve t d = .ok v) :
    ∃ tl', p.translateTokens keep template (Template.tokens template) d = .ok tl' ∧
      tl'.resolved.get? t.raw = some v := by
  obtain ⟨f, hf⟩ := exists_foldlM_of_succeeded h hsucceeded
  have hfold : Matches (fun _ _ => True) ((Template.tokens template).foldlM (p.find keep c) {})
      ((Template.tokens template).foldlM (p.find keep d) {}) :=
    .foldlM trivial fun t _ f g _ => find_matches hstrict (htokens t) f g
  rw [hf] at hfold
  generalize hg : (Template.tokens template).foldlM (p.find keep d) {} = y at hfold
  cases hfold with
  | @ok _ g _ =>
    obtain ⟨tl', htl', hresolved, -⟩ := translateTokens_of_foldlM hg template
    refine ⟨tl', htl', ?_⟩
    rw [hresolved]
    exact resolved_of_foldlM hv (fun u hu hraw => Template.eq_of_raw_eq hu ht hraw) hg (Or.inl ht)

end Pipeline

theorem Translation.toJson_ne {a b : Translation} {raw : String} {v w : Value}
    (ha : a.resolved.get? raw = some v) (hb : b.resolved.get? raw = some w)
    (h : v.toJson ≠ w.toJson) : a.toJson ≠ b.toJson := by
  intro heq
  simp only [Translation.toJson, Json.object.injEq, List.cons.injEq, Prod.mk.injEq] at heq
  have hresolved : Value.entriesToJson a.resolved = Value.entriesToJson b.resolved := by
    simpa using heq.2.2.2.2.1
  have hget := congrArg (fun members => Entries.get? members raw) hresolved
  simp only [Value.get?_entriesToJson, ha, hb, Option.map_some, Option.some.injEq] at hget
  exact h hget

/-! ### Templates that disclose nothing -/

section Conceal

variable {k : Clock} {functions : HostFunctions} {formatters : Formatters}

theorem Translator.exists_translation_of_token {tr : Translator} (htr : tr.Reachable) {now : Nat}
    {template : String} {c : Context} {t : Token} {v : Value}
    (htokens : Template.tokens template = [t]) (hv : tr.pipeline.resolve t c = .ok v) :
    ∃ tl, (tr.translate now template c).1 = .ok tl ∧ tl.resolved.get? t.raw = some v := by
  rcases htr.translate_cases now template with htranslate | ⟨hnil, -⟩
  · have hfold : [t].foldlM (tr.pipeline.find tr.keepUnresolved c) {} =
        .ok ((({} : Findings)).resolve t.raw v) := by
      rw [List.foldlM_cons, Pipeline.find, hv]
      rfl
    obtain ⟨tl, htl, hresolved, -⟩ := Pipeline.translateTokens_of_foldlM hfold template
    refine ⟨tl, by rw [htranslate, htokens, htl], ?_⟩
    rw [hresolved]
    exact Entries.get?_insert_self t.raw v []
  · rw [hnil] at htokens
    cases htokens

/-- A token that uncovers something hidden shows it as soon as the translation succeeds over some
model of the class. -/
theorem Translator.exists_translations_ne {tr : Translator} (htr : tr.Reachable)
    (hp : tr.pipeline = .standard k functions formatters) {now : Nat} {template : String}
    {c : Context} {p : Policy} {t : Token} {m : Model} {tl : Translation}
    (ht : t ∈ Template.tokens template) (hcover : t.Uncovers p m.className c.expectedHead)
    (htl : (tr.translate now template (c.onModel m p)).1 = .ok tl)
    (hsucceeded : tl.succeeded = true) :
    ∃ m₁ m₂ : Model, m₁.className = m.className ∧ m₁.AgreeOff m₂ p ∧
      (tr.translate now template (c.onModel m₁ p)).1.map Translation.toJson ≠
        (tr.translate now template (c.onModel m₂ p)).1.map Translation.toJson := by
  obtain ⟨m₁, m₂, hm₁, hm₂, hagree, hwalks⟩ := Model.exists_walks_ne hcover.start m
  refine ⟨m₁, m₂, hm₁.className.symm, hagree, ?_⟩
  rcases htr.translate_cases now template with htokens | ⟨hnil, -⟩
  · rw [htokens] at htl
    rw [htokens, htokens]
    rw [hp] at htl ⊢
    have hshown : ∀ n : Model, m.AnswerAlike n p → ∃ tl',
        (Pipeline.standard k functions formatters).translateTokens tr.keepUnresolved template
          (Template.tokens template) (c.onModel n p) = .ok tl' ∧
        tl'.resolved.get? t.raw = some ((Value.host n.toHost).collectionWalk t.fieldPath) := by
      intro n hn
      refine Pipeline.exists_resolved (d := c.onModel n p) htl hsucceeded rfl
        (Pipeline.resolve_standard_matches hn · c) ht ?_
      exact Pipeline.resolve_standard_of_uncovers (hn.className ▸ hcover)
    obtain ⟨tl₁, htl₁, hvalue₁⟩ := hshown m₁ hm₁
    obtain ⟨tl₂, htl₂, hvalue₂⟩ := hshown m₂ hm₂
    rw [htl₁, htl₂]
    intro heq
    exact Translation.toJson_ne hvalue₁ hvalue₂ hwalks (Except.ok.inj heq)
  · rw [hnil] at ht
    exact absurd ht List.not_mem_nil

/-- What is hidden stays out of a translation exactly when no token uncovers it or the translation
succeeds over no model of the class at all; it stays out of a clause exactly when the clause reaches
no declaration that tells and writes no statement that refers to the whole model. -/
theorem Translator.conceals_iff {tr : Translator} (htr : tr.Reachable)
    (hp : tr.pipeline = .standard k functions formatters) (now : Nat) (template : String)
    (c : Context) (p : Policy) (className : String) :
    ((∀ m n : Model, m.className = className → m.AgreeOff n p →
        (tr.translate now template (c.onModel m p)).1.map Translation.toJson =
          (tr.translate now template (c.onModel n p)).1.map Translation.toJson) ↔
      (∀ t ∈ Template.tokens template, ¬ t.Uncovers p className c.expectedHead) ∨
        ∀ m : Model, m.className = className → ∀ tl,
          (tr.translate now template (c.onModel m p)).1 = .ok tl → tl.succeeded = false) ∧
    ((∀ m n : Model, m.className = className → m.AgreeOff n p →
        Clause.resolve tr.pipeline template (c.onModel m p) =
          Clause.resolve tr.pipeline template (c.onModel n p)) ↔
      ∀ clause, Clause.read template = .ok clause →
        clause.Conceals tr.pipeline c p className) := by
  refine ⟨⟨fun hequal => ?_, ?_⟩, ?_⟩
  · rw [or_iff_not_imp_left]
    intro hcovers m hm tl htl
    obtain ⟨t, ht, hcover⟩ : ∃ t ∈ Template.tokens template,
        t.Uncovers p className c.expectedHead := by
      simpa only [not_forall, not_not, exists_prop] using hcovers
    rw [Bool.eq_false_iff]
    intro hsucceeded
    subst hm
    obtain ⟨m₁, m₂, hclass, hagree, hne⟩ :=
      exists_translations_ne htr hp ht hcover htl hsucceeded
    exact hne (hequal m₁ m₂ hclass hagree)
  · intro hconcealed m n hm hagree
    subst hm
    rcases htr.translate_cases now template with htokens | ⟨-, outcome, houtcome⟩
    · rw [htokens, htokens]
      rcases hconcealed with hcovers | hfails
      · rw [hp]
        exact Pipeline.translateTokens_twin (c := c.onModel m p) (d := c.onModel n p) rfl
          (fun t ht => Pipeline.resolve_standard_twin hagree.answerAlike hagree.twin (hcovers t ht))
          template
      · refine congrArg (Except.map Translation.toJson) ?_
        refine Pipeline.translateTokens_eq_of_failed (fun tl htl => ?_) rfl ?_
        · exact hfails m rfl tl ((htokens (c.onModel m p)).trans htl)
        · rw [hp]
          exact fun t => Pipeline.resolve_standard_matches hagree.answerAlike t c
    · rw [houtcome, houtcome]
  · exact Clause.resolve_eq_iff ⟨k, functions, formatters, hp⟩ className

end Conceal

def passwordHidden : Policy :=
  { denied := ["password"] }

def account (password : String) : Model where
  identity := 0
  className := "User"
  attributes := [("name", .string "Ann"), ("password", .string password)]
  relations := []

/-- A translator with the ordinary pipeline at a fixed instant. -/
def ordinaryTranslator : Translator :=
  { pipeline := .standard { now := ⟨⟨1970, 1, 1, by decide⟩, Calendar.Time.midnight⟩ } [] [] }

theorem agreeOff_account (a b : String) : (account a).AgreeOff (account b) passwordHidden where
  className := rfl
  attributes := .cons ⟨rfl, fun _ => rfl⟩ (.cons ⟨rfl, fun h => by cases h⟩ .nil)
  relations := .nil

theorem ordinaryTranslator_reachable : ordinaryTranslator.Reachable :=
  .start (.inl rfl)

theorem translate_roles_conceals :
    ordinaryTranslator.Reachable ∧
      ∀ m n : Model, m.className = "User" → m.AgreeOff n passwordHidden →
        (ordinaryTranslator.translate 0
            "\x7b\x7bUser.name\x7d\x7d: \x7b\x7bUser.roles.first\x7d\x7d"
            (Context.empty.onModel m passwordHidden)).1.map Translation.toJson =
          (ordinaryTranslator.translate 0
            "\x7b\x7bUser.name\x7d\x7d: \x7b\x7bUser.roles.first\x7d\x7d"
            (Context.empty.onModel n passwordHidden)).1.map Translation.toJson := by
  have hreach := ordinaryTranslator_reachable
  refine ⟨hreach, (Translator.conceals_iff hreach rfl 0 _ Context.empty passwordHidden "User").1.mpr
    (Or.inl ?_)⟩
  have htokens : Template.tokens "\x7b\x7bUser.name\x7d\x7d: \x7b\x7bUser.roles.first\x7d\x7d" =
      [Token.classify "User.name".toList, Token.classify "User.roles.first".toList] := by rfl
  rw [htokens]
  intro t ht hcover
  rcases List.mem_cons.mp ht with rfl | ht
  · exact absurd hcover.kind (by decide)
  · rw [List.mem_singleton.mp ht] at hcover
    have hroles : passwordHidden.isDenied "roles" = true := hcover.start.1
    exact absurd hroles (by decide)

theorem toJson_account (password : String) :
    (Value.host (account password).toHost).toJson =
      .object [("name", .string "Ann"), ("password", .string password)] := by
  rw [Value.toJson_host]
  rfl

/-- The whole model behind the guard comes out through a token without a field path. -/
theorem translate_first_discloses :
    (account "a").AgreeOff (account "b") passwordHidden ∧
      (ordinaryTranslator.translate 0 "\x7b\x7bfirst\x7d\x7d"
          (Context.empty.onModel (account "a") passwordHidden)).1.map Translation.toJson ≠
        (ordinaryTranslator.translate 0 "\x7b\x7bfirst\x7d\x7d"
          (Context.empty.onModel (account "b") passwordHidden)).1.map Translation.toJson := by
  refine ⟨agreeOff_account "a" "b", ?_⟩
  have hcover : (Token.classify "first".toList).Uncovers passwordHidden "User" none :=
    { kind := by decide
      head := fun _ h => by cases h
      admitted := by decide
      allowed := by decide
      start := List.cons_ne_nil "password" [] }
  have hreach := ordinaryTranslator_reachable
  have htokens : Template.tokens "\x7b\x7bfirst\x7d\x7d" = [Token.classify "first".toList] := by rfl
  have hshown : ∀ password, ∃ tl, (ordinaryTranslator.translate 0 "\x7b\x7bfirst\x7d\x7d"
      (Context.empty.onModel (account password) passwordHidden)).1 = .ok tl ∧
        tl.resolved.get? (Token.classify "first".toList).raw =
          some (.host (account password).toHost) := fun password =>
    Translator.exists_translation_of_token hreach htokens
      (Pipeline.resolve_standard_of_uncovers (m := account password) (c := Context.empty) hcover)
  obtain ⟨tl, htl, hvalue⟩ := hshown "a"
  obtain ⟨tl', htl', hvalue'⟩ := hshown "b"
  rw [htl, htl']
  intro heq
  refine Translation.toJson_ne hvalue hvalue' ?_ (Except.ok.inj heq)
  rw [toJson_account, toJson_account]
  simp

end Placeholder
