import Mathlib
import Placeholder.Translator

/-!
# Tokens from the cache

A translator asks its cache before it reads a template. The invariant is that every entry under the
translator's label holds the tokens of the template behind the label; whatever is parsed, dropped or
flushed, and whenever, it is kept. So parsing gives what reading the template gives.
-/

namespace Placeholder

namespace Cache

variable {α : Type}

/-- The entry under a key, expired or not. -/
def kept? (c : Cache α) (key : String) : Option (Kept α) :=
  match c with
  | disabled => none
  | memory kept => kept.get? key
  | broken => none

theorem kept?_empty (key : String) : (empty : Cache α).kept? key = none := rfl

theorem kept?_disabled (key : String) : (disabled : Cache α).kept? key = none := rfl

theorem kept?_broken (key : String) : (broken : Cache α).kept? key = none := rfl

/-- What a cache in memory does when a key is set: it has the new entry, or there is no instant for
the deadline, which breaks it. -/
theorem set_memory (kept : Entries (Kept α)) (now : Nat) (key : String) (v : α)
    (ttl : Option Nat) :
    (∃ deadline, deadline? now ttl = some deadline ∧
        (memory kept).set now key v ttl = memory (kept.insert key ⟨v, deadline⟩)) ∨
      deadline? now ttl = none ∧ (memory kept).set now key v ttl = broken := by
  cases hdeadline : deadline? now ttl with
  | some deadline =>
    refine Or.inl ⟨deadline, rfl, ?_⟩
    simp only [set, hdeadline]
  | none =>
    refine Or.inr ⟨rfl, ?_⟩
    simp only [set, hdeadline]

/-- What a cache in memory does when it is asked for a key: there is no entry, or an expired one,
which is dropped, or one that still counts. -/
theorem get_memory (kept : Entries (Kept α)) (now : Nat) (key : String) :
    kept.get? key = none ∧ (memory kept).get now key = (none, memory kept) ∨
      (∃ e, kept.get? key = some e ∧ (memory kept).get now key = (none, memory (kept.erase key))) ∨
      ∃ e, kept.get? key = some e ∧ (memory kept).get now key = (some e.value, memory kept) := by
  cases hkept : kept.get? key with
  | none =>
    refine Or.inl ⟨rfl, ?_⟩
    simp only [get, hkept]
  | some e =>
    cases hexp : e.isExpired now with
    | true =>
      refine Or.inr (Or.inl ⟨e, rfl, ?_⟩)
      simp only [get, hkept, hexp, if_true]
    | false =>
      refine Or.inr (Or.inr ⟨e, rfl, ?_⟩)
      simp only [get, hkept, hexp, Bool.false_eq_true, if_false]

theorem kept?_of_get {c : Cache α} {now : Nat} {key : String} {v : α}
    (h : (c.get now key).1 = some v) : ∃ e, c.kept? key = some e ∧ e.value = v := by
  cases c with
  | disabled => simp [get] at h
  | broken => simp [get] at h
  | memory kept =>
    rcases get_memory kept now key with ⟨-, hget⟩ | ⟨e, -, hget⟩ | ⟨e, hkept, hget⟩
    · rw [hget] at h
      contradiction
    · rw [hget] at h
      contradiction
    · rw [hget] at h
      exact ⟨e, hkept, Option.some.inj h⟩

/-- The entries of one cache are entries of another. -/
def Within (c d : Cache α) : Prop :=
  ∀ key e, c.kept? key = some e → d.kept? key = some e

theorem within_refl (c : Cache α) : c.Within c := fun _ _ h => h

theorem within_forget (c : Cache α) (key : String) : (c.forget key).Within c := by
  intro other e h
  cases c with
  | disabled => exact h
  | broken => exact h
  | memory kept =>
    change Entries.get? (Entries.erase key kept) other = some e at h
    by_cases hkey : other = key
    · rw [hkey, Entries.get?_erase_self] at h
      contradiction
    · rwa [Entries.get?_erase_of_ne hkey] at h

theorem within_flush (c : Cache α) : c.flush.Within c := by
  intro key e h
  cases c with
  | disabled => exact h
  | broken => exact h
  | memory kept => simp [flush, kept?_empty] at h

theorem within_get (c : Cache α) (now : Nat) (key : String) : (c.get now key).2.Within c := by
  cases c with
  | disabled => exact within_refl _
  | broken => exact within_refl _
  | memory kept =>
    rcases get_memory kept now key with ⟨-, hget⟩ | ⟨e, -, hget⟩ | ⟨e, -, hget⟩
    · rw [hget]
      exact within_refl _
    · rw [hget]
      exact within_forget (memory kept) key
    · rw [hget]
      exact within_refl _

theorem kept?_set {c : Cache α} {now : Nat} {key other : String} {v : α} {ttl : Option Nat}
    {e : Kept α} (h : (c.set now key v ttl).kept? other = some e) :
    (other = key ∧ e.value = v) ∨ c.kept? other = some e := by
  cases c with
  | disabled => exact Or.inr h
  | broken => exact Or.inr h
  | memory kept =>
    rcases set_memory kept now key v ttl with ⟨deadline, -, hset⟩ | ⟨-, hset⟩
    · rw [hset] at h
      change Entries.get? (Entries.insert key _ kept) other = some e at h
      by_cases hkey : other = key
      · rw [hkey, Entries.get?_insert_self] at h
        exact Or.inl ⟨hkey, congrArg Kept.value (Option.some.inj h).symm⟩
      · rw [Entries.get?_insert_of_ne hkey] at h
        exact Or.inr h
    · rw [hset, kept?_broken] at h
      contradiction

end Cache

namespace Translator

/-- Every entry under the label of a translator holds the tokens of its template. -/
def Faithful (tr : Translator) : Prop :=
  ∀ template e, tr.cache.kept? (tr.cacheKey template) = some e →
    Template.parse template = .ok e.value

/-- The translators that come from one with an unused cache by parsing templates at any instants,
by dropping entries and by changes of the other settings. -/
inductive Reachable : Translator → Prop where
  | start {tr : Translator} : tr.cache = .disabled ∨ tr.cache = .empty → Reachable tr
  | parse {tr : Translator} (now : Nat) (template : String) :
      Reachable tr → Reachable (tr.parse now template).2
  | forget {tr : Translator} (key : String) :
      Reachable tr → Reachable { tr with cache := tr.cache.forget key }
  | flush {tr : Translator} : Reachable tr → Reachable { tr with cache := tr.cache.flush }
  | configure {tr tr' : Translator} :
      Reachable tr → tr'.cache = tr.cache → tr'.cacheLabel = tr.cacheLabel → Reachable tr'

theorem cacheKey_inj {tr : Translator} {a b : String} (h : tr.cacheKey a = tr.cacheKey b) :
    a = b := by
  have hlist := congrArg String.toList h
  simp only [cacheKey, String.toList_append, List.append_cancel_left_eq] at hlist
  exact String.toList_inj.mp hlist

theorem faithful_of_within {tr : Translator} {cache : Cache (List Token)} (h : tr.Faithful)
    (hcache : cache.Within tr.cache) : Faithful { tr with cache := cache } :=
  fun template e he => h template e (hcache _ e he)

theorem parse_of_found {tr : Translator} {now : Nat} {template : String} {tokens : List Token}
    {cache : Cache (List Token)}
    (h : tr.cache.get now (tr.cacheKey template) = (some tokens, cache)) :
    tr.parse now template = (.ok tokens, { tr with cache := cache }) := by
  simp only [Translator.parse, h]

theorem parse_of_read {tr : Translator} {now : Nat} {template : String} {tokens : List Token}
    {cache : Cache (List Token)} (h : tr.cache.get now (tr.cacheKey template) = (none, cache))
    (hparse : Template.parse template = .ok tokens) :
    tr.parse now template =
      (.ok tokens,
        { tr with cache := cache.set now (tr.cacheKey template) tokens tr.cacheTtl }) := by
  simp only [Translator.parse, h, hparse]

theorem parse_of_malformed {tr : Translator} {now : Nat} {template : String} {e : GrammarError}
    {cache : Cache (List Token)} (h : tr.cache.get now (tr.cacheKey template) = (none, cache))
    (hparse : Template.parse template = .error e) :
    tr.parse now template = (.error e, { tr with cache := cache }) := by
  simp only [Translator.parse, h, hparse]

/-- Parsing with a faithful cache gives the tokens of the template and keeps the cache faithful. -/
theorem parse_faithful {tr : Translator} (h : tr.Faithful) (now : Nat) (template : String) :
    (tr.parse now template).1 = Template.parse template ∧ (tr.parse now template).2.Faithful := by
  have hwithin := Cache.within_get tr.cache now (tr.cacheKey template)
  rcases hget : tr.cache.get now (tr.cacheKey template) with ⟨found, cache⟩
  rw [hget] at hwithin
  cases found with
  | some tokens =>
    obtain ⟨e, he, hvalue⟩ := Cache.kept?_of_get (congrArg Prod.fst hget)
    rw [parse_of_found hget]
    exact ⟨by rw [h template e he, hvalue], faithful_of_within h hwithin⟩
  | none =>
    cases hparse : Template.parse template with
    | error e =>
      rw [parse_of_malformed hget hparse]
      exact ⟨rfl, faithful_of_within h hwithin⟩
    | ok tokens =>
      rw [parse_of_read hget hparse]
      refine ⟨rfl, ?_⟩
      intro other e he
      rcases Cache.kept?_set he with ⟨hkey, hvalue⟩ | hold
      · rw [@cacheKey_inj tr _ _ hkey, hparse, hvalue]
      · exact h other e (hwithin _ e hold)

theorem Reachable.faithful {tr : Translator} (h : tr.Reachable) : tr.Faithful := by
  induction h with
  | start hcache =>
    intro template e he
    rcases hcache with hcache | hcache
    · rw [hcache, Cache.kept?_disabled] at he
      contradiction
    · rw [hcache, Cache.kept?_empty] at he
      contradiction
  | parse now template _ ih => exact (parse_faithful ih now template).2
  | forget key _ ih => exact faithful_of_within ih (Cache.within_forget _ key)
  | flush _ ih => exact faithful_of_within ih (Cache.within_flush _)
  | configure _ hcache hlabel ih =>
    intro template e he
    rw [hcache, cacheKey, hlabel] at he
    exact ih template e he

/-- Parsing gives the tokens of the template, from whatever translator it starts. -/
theorem Reachable.parse_eq {tr : Translator} (h : tr.Reachable) (now : Nat) (template : String) :
    (tr.parse now template).1 = Template.parse template :=
  (parse_faithful h.faithful now template).1

theorem parse_settings (tr : Translator) (now : Nat) (template : String) :
    ∃ cache, (tr.parse now template).2 = { tr with cache := cache } := by
  rcases hget : tr.cache.get now (tr.cacheKey template) with ⟨found, cache⟩
  cases found with
  | some tokens => exact ⟨cache, congrArg Prod.snd (parse_of_found hget)⟩
  | none =>
    cases hparse : Template.parse template with
    | error e => exact ⟨cache, congrArg Prod.snd (parse_of_malformed hget hparse)⟩
    | ok tokens => exact ⟨_, congrArg Prod.snd (parse_of_read hget hparse)⟩

/-- Translating a template, with parsing as the first step. -/
theorem translate_fst (tr : Translator) (now : Nat) (template : String) (c : Context) :
    (tr.translate now template c).1 =
      if hasDoubleBraces template.toList then
        match (tr.parse now template).1 with
        | .ok tokens => tr.pipeline.translateTokens tr.keepUnresolved template tokens c
        | .error e => .error (.grammar e)
      else .ok (.success template template) := by
  obtain ⟨cache, hsettings⟩ := parse_settings tr now template
  unfold Translator.translate
  split
  · rcases hresult : tr.parse now template with ⟨tokens, tr'⟩
    rw [hresult] at hsettings
    simp only at hsettings
    subst hsettings
    cases tokens <;> rfl
  · rfl

/-- What translating a template gives, without the cache. -/
theorem Reachable.translate_eq {tr : Translator} (h : tr.Reachable) (now : Nat)
    (template : String) (c : Context) :
    (tr.translate now template c).1 =
      if hasDoubleBraces template.toList then
        match Template.parse template with
        | .ok tokens => tr.pipeline.translateTokens tr.keepUnresolved template tokens c
        | .error e => .error (.grammar e)
      else .ok (.success template template) := by
  rw [translate_fst, h.parse_eq]

end Translator

end Placeholder
