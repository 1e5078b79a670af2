import Mathlib
import Placeholder.Proofs.TokenCache

/-!
# Runs with a cache

A translator answers one request after another while time passes and others look into its cache,
drop an entry of it or empty it. Every step keeps the cache faithful, and a faithful cache changes
no answer. So nobody can tell a translator with a cache from one without, as long as there is an
instant for every deadline. One request at most comes too late for that: it crashes, and the broken
cache that it leaves changes no answer again.
-/

namespace Placeholder

namespace Cache

variable {α : Type} {c : Cache α}

theorem deadline?_eq_none_iff {now : Nat} {ttl : Option Nat} :
    deadline? now ttl = none ↔ ∃ t, ttl = some t ∧ lastInstant < now + t := by
  cases ttl with
  | none => simp [deadline?]
  | some t =>
    by_cases h : now + t ≤ lastInstant
    · simp [deadline?, h]
    · simp [deadline?, h, Nat.lt_of_not_le h]

def InMemory (c : Cache α) : Prop :=
  ∃ kept, c = memory kept

theorem inMemory_iff : c.InMemory ↔ c ≠ disabled ∧ c.isBroken = false := by
  cases c <;> simp [InMemory, isBroken]

theorem InMemory.get (h : c.InMemory) (now : Nat) (key : String) : (c.get now key).2.InMemory := by
  obtain ⟨kept, rfl⟩ := h
  rcases get_memory kept now key with ⟨-, hget⟩ | ⟨e, -, hget⟩ | ⟨e, -, hget⟩ <;>
    exact ⟨_, congrArg Prod.snd hget⟩

theorem InMemory.kept?_set_self (h : c.InMemory) {now : Nat} {ttl deadline : Option Nat}
    (hdeadline : deadline? now ttl = some deadline) (key : String) (v : α) :
    (c.set now key v ttl).kept? key = some ⟨v, deadline⟩ := by
  obtain ⟨kept, rfl⟩ := h
  rcases set_memory kept now key v ttl with ⟨deadline', hsome, hset⟩ | ⟨hnone, -⟩
  · obtain rfl : deadline' = deadline := Option.some.inj (hsome.symm.trans hdeadline)
    rw [hset]
    exact Entries.get?_insert_self key _ kept
  · rw [hnone] at hdeadline
    contradiction

/-! ### Broken caches -/

theorem isBroken_get (c : Cache α) (now : Nat) (key : String) :
    (c.get now key).2.isBroken = c.isBroken := by
  cases c with
  | disabled => rfl
  | broken => rfl
  | memory kept =>
    obtain ⟨kept', hkept⟩ := InMemory.get ⟨kept, rfl⟩ now key
    rw [hkept]
    rfl

theorem isBroken_forget (c : Cache α) (key : String) : (c.forget key).isBroken = c.isBroken := by
  cases c <;> rfl

theorem isBroken_flush (c : Cache α) : c.flush.isBroken = c.isBroken := by
  cases c <;> rfl

/-- Setting an entry breaks a cache in memory if there is no instant for the deadline. -/
theorem isBroken_set_iff {now : Nat} {key : String} {v : α} {ttl : Option Nat} :
    (c.set now key v ttl).isBroken = true ↔
      c.isBroken = true ∨ c.InMemory ∧ deadline? now ttl = none := by
  cases c with
  | disabled => simp [set, isBroken, InMemory]
  | broken => simp [set, isBroken]
  | memory kept =>
    rcases set_memory kept now key v ttl with ⟨deadline, hsome, hset⟩ | ⟨hnone, hset⟩
    · simp [hset, hsome, isBroken]
    · simp [hset, hnone, isBroken, InMemory]

/-! ### Disabled caches -/

theorem get_eq_disabled_iff {now : Nat} {key : String} :
    (c.get now key).2 = disabled ↔ c = disabled := by
  cases c with
  | disabled => simp [get]
  | broken => simp [get]
  | memory kept =>
    obtain ⟨kept', hkept⟩ := InMemory.get ⟨kept, rfl⟩ now key
    simp [hkept]

theorem set_eq_disabled_iff {now : Nat} {key : String} {v : α} {ttl : Option Nat} :
    c.set now key v ttl = disabled ↔ c = disabled := by
  cases c with
  | disabled => simp [set]
  | broken => simp [set]
  | memory kept =>
    rcases set_memory kept now key v ttl with ⟨deadline, -, hset⟩ | ⟨-, hset⟩ <;> simp [hset]

theorem forget_eq_disabled_iff {key : String} : c.forget key = disabled ↔ c = disabled := by
  cases c <;> simp [forget]

theorem flush_eq_disabled_iff : c.flush = disabled ↔ c = disabled := by
  cases c <;> simp [flush, empty]

/-- An entry that is found stays. -/
theorem get_snd_of_found {now : Nat} {key : String} {v : α} (h : (c.get now key).1 = some v) :
    (c.get now key).2 = c := by
  cases c with
  | disabled => rfl
  | broken => rfl
  | memory kept =>
    rcases get_memory kept now key with ⟨-, hget⟩ | ⟨e, -, hget⟩ | ⟨e, -, hget⟩
    · rw [hget]
    · rw [hget] at h
      contradiction
    · rw [hget]

end Cache

namespace Translator

inductive Request where
  | parse (template : String)
  | translate (template : String) (c : Context)

/-- The template that is parsed for a request. -/
def Request.parsed? : Request → Option String
  | parse template => some template
  | translate template _ => if hasDoubleBraces template.toList then some template else none

inductive Answer where
  | tokens (outcome : Except GrammarError (List Token))
  | translation (outcome : Except Failure Translation)
  | crashed

/-- What a request gives if it returns. -/
def result (tr : Translator) (now : Nat) : Request → Answer × Translator
  | .parse template => ((tr.parse now template).map .tokens id)
  | .translate template c => ((tr.translate now template c).map .translation id)

/-- A request in which the cache breaks crashes. -/
def answer (tr : Translator) (now : Nat) (r : Request) : Answer × Translator :=
  let (a, next) := tr.result now r
  (if next.cache.isBroken && !tr.cache.isBroken then .crashed else a, next)

/-- What happens to a translator: it gets a request at some instant, or others change its cache. They
look for an entry, which drops it if it has expired, they forget one or all of them, but they never
set any. -/
inductive Event where
  | request (now : Nat) (r : Request)
  | lookUp (now : Nat) (key : String)
  | forget (key : String)
  | flush

def step (tr : Translator) : Event → Option Answer × Translator
  | .request now r => (tr.answer now r).map some id
  | .lookUp now key => (none, { tr with cache := (tr.cache.get now key).2 })
  | .forget key => (none, { tr with cache := tr.cache.forget key })
  | .flush => (none, { tr with cache := tr.cache.flush })

/-- The answers in the order of the events, and the translator in the end. -/
def run (tr : Translator) : List Event → List (Option Answer) × Translator
  | [] => ([], tr)
  | e :: events => ((tr.step e).1 :: ((tr.step e).2.run events).1, ((tr.step e).2.run events).2)

theorem length_run (tr : Translator) (events : List Event) :
    (tr.run events).1.length = events.length := by
  induction events generalizing tr with
  | nil => rfl
  | cons e events ih => simp [run, ih]

/-- Parsing a template breaks the cache: the template is well-formed, no entry for it counts any more,
and there is no instant for the deadline of a new one. -/
structure BreaksOn (tr : Translator) (now : Nat) (template : String) : Prop where
  inMemory : tr.cache.InMemory
  late : ∃ ttl, tr.cacheTtl = some ttl ∧ Cache.lastInstant < now + ttl
  wellFormed : ∃ tokens, Template.parse template = .ok tokens
  missing : (tr.cache.get now (tr.cacheKey template)).1 = none

def Breaks (tr : Translator) (now : Nat) (r : Request) : Prop :=
  ∃ template, r.parsed? = some template ∧ tr.BreaksOn now template

/-- The event with this index is a request that breaks the cache. -/
def BreaksAt (tr : Translator) (events : List Event) (i : Nat) : Prop :=
  ∃ now r, events[i]? = some (.request now r) ∧ (tr.run (events.take i)).2.Breaks now r

/-! ### One step -/

theorem translate_snd (tr : Translator) (now : Nat) (template : String) (c : Context) :
    (tr.translate now template c).2 =
      if hasDoubleBraces template.toList then (tr.parse now template).2 else tr := by
  unfold translate
  split
  · split <;> rename_i hparse <;> rw [hparse]
  · rfl

/-- A request leaves the translator as it was or as parsing its template does. -/
theorem answer_snd (tr : Translator) (now : Nat) (r : Request) :
    (tr.answer now r).2 =
      match r.parsed? with
      | some template => (tr.parse now template).2
      | none => tr := by
  cases r with
  | parse template => rfl
  | translate template c =>
    change (tr.translate now template c).2 = _
    rw [translate_snd, Request.parsed?]
    split <;> rfl

theorem step_faithful {tr : Translator} (h : tr.Faithful) (e : Event) : (tr.step e).2.Faithful := by
  cases e with
  | request now r =>
    change (tr.answer now r).2.Faithful
    rw [answer_snd]
    cases r.parsed? with
    | some template => exact (parse_faithful h now template).2
    | none => exact h
  | lookUp now key => exact faithful_of_within h (Cache.within_get _ now key)
  | forget key => exact faithful_of_within h (Cache.within_forget _ key)
  | flush => exact faithful_of_within h (Cache.within_flush _)

/-- A step changes the cache alone. -/
theorem step_settings (tr : Translator) (e : Event) :
    ∃ cache, (tr.step e).2 = { tr with cache := cache } := by
  cases e with
  | request now r =>
    change ∃ cache, (tr.answer now r).2 = { tr with cache := cache }
    rw [answer_snd]
    cases r.parsed? with
    | some template => exact tr.parse_settings now template
    | none => exact ⟨tr.cache, rfl⟩
  | lookUp now key => exact ⟨_, rfl⟩
  | forget key => exact ⟨_, rfl⟩
  | flush => exact ⟨_, rfl⟩

theorem parse_disabled_iff {tr : Translator} {now : Nat} {template : String} :
    (tr.parse now template).2.cache = .disabled ↔ tr.cache = .disabled := by
  have hget : (tr.cache.get now (tr.cacheKey template)).2 = .disabled ↔ tr.cache = .disabled :=
    Cache.get_eq_disabled_iff
  rcases hfound : tr.cache.get now (tr.cacheKey template) with ⟨found, cache⟩
  rw [hfound] at hget
  cases found with
  | some tokens => rw [parse_of_found hfound, ← hget]
  | none =>
    cases hparse : Template.parse template with
    | error e => rw [parse_of_malformed hfound hparse, ← hget]
    | ok tokens => rw [parse_of_read hfound hparse, ← hget, Cache.set_eq_disabled_iff]

theorem step_disabled_iff {tr : Translator} {e : Event} :
    (tr.step e).2.cache = .disabled ↔ tr.cache = .disabled := by
  cases e with
  | request now r =>
    change (tr.answer now r).2.cache = .disabled ↔ _
    rw [answer_snd]
    cases r.parsed? with
    | some template => exact parse_disabled_iff
    | none => exact Iff.rfl
  | lookUp now key => exact Cache.get_eq_disabled_iff
  | forget key => exact Cache.forget_eq_disabled_iff
  | flush => exact Cache.flush_eq_disabled_iff

/-! ### The step that breaks the cache -/

theorem not_breaks_of_broken {tr : Translator} (h : tr.cache.isBroken = true) {now : Nat}
    {r : Request} : ¬ tr.Breaks now r := by
  rintro ⟨template, -, hbreaks⟩
  simp [(Cache.inMemory_iff.mp hbreaks.inMemory).2] at h

theorem not_breaks_of_disabled {tr : Translator} (h : tr.cache = .disabled) {now : Nat}
    {r : Request} : ¬ tr.Breaks now r :=
  fun ⟨_, _, hbreaks⟩ => (Cache.inMemory_iff.mp hbreaks.inMemory).1 h

theorem isBroken_parse_iff {tr : Translator} {now : Nat} {template : String} :
    (tr.parse now template).2.cache.isBroken = true ↔
      tr.cache.isBroken = true ∨ tr.BreaksOn now template := by
  have hbroken := Cache.isBroken_get tr.cache now (tr.cacheKey template)
  have hdisabled : (tr.cache.get now (tr.cacheKey template)).2 = .disabled ↔
      tr.cache = .disabled := Cache.get_eq_disabled_iff
  rcases hfound : tr.cache.get now (tr.cacheKey template) with ⟨found, cache⟩
  rw [hfound] at hbroken hdisabled
  cases found with
  | some tokens =>
    have hnot : ¬ tr.BreaksOn now template := fun h => by simpa [hfound] using h.missing
    rw [parse_of_found hfound, or_iff_left hnot, ← hbroken]
  | none =>
    cases hparse : Template.parse template with
    | error e =>
      have hnot : ¬ tr.BreaksOn now template := fun h => by simpa [hparse] using h.wellFormed
      rw [parse_of_malformed hfound hparse, or_iff_left hnot, ← hbroken]
    | ok tokens =>
      have hmemory : cache.InMemory ↔ tr.cache.InMemory := by
        rw [Cache.inMemory_iff, Cache.inMemory_iff, hbroken, ne_eq, ne_eq, hdisabled]
      have hbreaks : tr.BreaksOn now template ↔
          cache.InMemory ∧ Cache.deadline? now tr.cacheTtl = none := by
        rw [hmemory, Cache.deadline?_eq_none_iff]
        exact ⟨fun h => ⟨h.inMemory, h.late⟩,
          fun h => ⟨h.1, h.2, ⟨tokens, hparse⟩, by rw [hfound]⟩⟩
      rw [parse_of_read hfound hparse, Cache.isBroken_set_iff, hbroken, hbreaks]

/-- A request breaks the cache exactly when it needs a deadline that is no instant. -/
theorem isBroken_answer_iff {tr : Translator} {now : Nat} {r : Request} :
    (tr.answer now r).2.cache.isBroken = true ↔
      tr.cache.isBroken = true ∨ tr.Breaks now r := by
  rw [answer_snd]
  cases hparsed : r.parsed? with
  | some template => simp [isBroken_parse_iff, Breaks, hparsed]
  | none => simp [Breaks, hparsed]

theorem answer_of_breaks {tr : Translator} {now : Nat} {r : Request} (h : tr.Breaks now r) :
    (tr.answer now r).1 = .crashed := by
  have hnext : (tr.result now r).2.cache.isBroken = true := isBroken_answer_iff.mpr (Or.inr h)
  have hbefore : tr.cache.isBroken = false :=
    Bool.eq_false_iff.mpr fun hbroken => not_breaks_of_broken hbroken h
  simp [answer, hnext, hbefore]

theorem answer_of_not_breaks {tr : Translator} {now : Nat} {r : Request}
    (h : ¬ tr.Breaks now r) : (tr.answer now r).1 = (tr.result now r).1 := by
  have hnext : (tr.result now r).2.cache.isBroken = true → tr.cache.isBroken = true :=
    fun hbroken => (isBroken_answer_iff.mp hbroken).resolve_right h
  have hintact : ((tr.result now r).2.cache.isBroken && !tr.cache.isBroken) = false := by
    cases hb : (tr.result now r).2.cache.isBroken with
    | false => rfl
    | true => simp [hnext hb]
  simp [answer, hintact]

theorem isBroken_step {tr : Translator} (h : tr.cache.isBroken = true) (e : Event) :
    (tr.step e).2.cache.isBroken = true := by
  cases e with
  | request now r => exact isBroken_answer_iff.mpr (Or.inl h)
  | lookUp now key => exact (Cache.isBroken_get tr.cache now key).trans h
  | forget key => exact (Cache.isBroken_forget tr.cache key).trans h
  | flush => exact (Cache.isBroken_flush tr.cache).trans h

/-! ### Side by side with a disabled cache -/

/-- A translator with a faithful cache and one without a cache that agree in everything else that an
answer depends on. -/
structure Mirrors (tr u : Translator) : Prop where
  faithful : tr.Faithful
  disabled : u.cache = .disabled
  pipeline : tr.pipeline = u.pipeline
  keepUnresolved : tr.keepUnresolved = u.keepUnresolved

variable {tr u : Translator}

theorem faithful_of_disabled (h : u.cache = .disabled) : u.Faithful := by
  intro template e he
  rw [h, Cache.kept?_disabled] at he
  contradiction

theorem Mirrors.result_eq (h : tr.Mirrors u) (now : Nat) (r : Request) :
    (tr.result now r).1 = (u.result now r).1 := by
  have hparse : ∀ template, (tr.parse now template).1 = (u.parse now template).1 := by
    intro template
    rw [(parse_faithful h.faithful now template).1,
      (parse_faithful (faithful_of_disabled h.disabled) now template).1]
  cases r with
  | parse template => exact congrArg Answer.tokens (hparse template)
  | translate template c =>
    have htranslate : (tr.translate now template c).1 = (u.translate now template c).1 := by
      rw [translate_fst, translate_fst, hparse, h.pipeline, h.keepUnresolved]
    exact congrArg Answer.translation htranslate

/-- The request gives what it gives without a cache, if it does not break the cache. -/
theorem Mirrors.answer_eq (h : tr.Mirrors u) {now : Nat} {r : Request}
    (hr : ¬ tr.Breaks now r) : (tr.answer now r).1 = (u.answer now r).1 := by
  rw [answer_of_not_breaks hr, answer_of_not_breaks (not_breaks_of_disabled h.disabled),
    h.result_eq]

theorem Mirrors.next (h : tr.Mirrors u) (e : Event) : (tr.step e).2.Mirrors (u.step e).2 := by
  obtain ⟨cache, hcache⟩ := tr.step_settings e
  obtain ⟨cache', hcache'⟩ := u.step_settings e
  refine ⟨step_faithful h.faithful e, step_disabled_iff.mpr h.disabled, ?_, ?_⟩
  · rw [hcache, hcache']
    exact h.pipeline
  · rw [hcache, hcache']
    exact h.keepUnresolved

theorem Mirrors.step_eq (h : tr.Mirrors u) {e : Event}
    (he : ∀ now r, e = .request now r → ¬ tr.Breaks now r) : (tr.step e).1 = (u.step e).1 := by
  cases e with
  | request now r => exact congrArg some (h.answer_eq (he now r rfl))
  | lookUp now key => rfl
  | forget key => rfl
  | flush => rfl

/-! ### Runs -/

theorem breaksAt_zero_iff {e : Event} {events : List Event} :
    tr.BreaksAt (e :: events) 0 ↔ ∃ now r, e = .request now r ∧ tr.Breaks now r := by
  simp [BreaksAt, run]

theorem breaksAt_succ_iff {e : Event} {events : List Event} {i : Nat} :
    tr.BreaksAt (e :: events) (i + 1) ↔ (tr.step e).2.BreaksAt events i := by
  simp [BreaksAt, run]

theorem not_breaksAt_of_broken (h : tr.cache.isBroken = true) (events : List Event) (i : Nat) :
    ¬ tr.BreaksAt events i := by
  induction i generalizing tr events with
  | zero =>
    cases events with
    | nil => simp [BreaksAt]
    | cons e events =>
      rw [breaksAt_zero_iff]
      rintro ⟨now, r, -, hbreaks⟩
      exact not_breaks_of_broken h hbreaks
  | succ i ih =>
    cases events with
    | nil => simp [BreaksAt]
    | cons e events =>
      rw [breaksAt_succ_iff]
      exact ih (isBroken_step h e) events

theorem Mirrors.run_eq (h : tr.Mirrors u) {events : List Event}
    (hevents : ∀ i, ¬ tr.BreaksAt events i) : (tr.run events).1 = (u.run events).1 := by
  induction events generalizing tr u with
  | nil => rfl
  | cons e events ih =>
    have hhead : (tr.step e).1 = (u.step e).1 :=
      h.step_eq fun now r he hbreaks => hevents 0 (breaksAt_zero_iff.mpr ⟨now, r, he, hbreaks⟩)
    have htail : ∀ i, ¬ (tr.step e).2.BreaksAt events i :=
      fun i hi => hevents (i + 1) (breaksAt_succ_iff.mpr hi)
    rw [Translator.run, Translator.run, hhead, ih (h.next e) htail]

/-- The request that breaks the cache crashes, and no other answer is changed. -/
theorem Mirrors.run_of_breaksAt (h : tr.Mirrors u) {events : List Event} {i : Nat}
    (hi : tr.BreaksAt events i) :
    (tr.run events).1 = (u.run events).1.set i (some .crashed) := by
  induction events generalizing tr u i with
  | nil => simp [BreaksAt] at hi
  | cons e events ih =>
    cases i with
    | zero =>
      obtain ⟨now, r, rfl, hbreaks⟩ := breaksAt_zero_iff.mp hi
      have hbroken : (tr.answer now r).2.cache.isBroken = true :=
        isBroken_answer_iff.mpr (Or.inr hbreaks)
      have hhead : (tr.step (.request now r)).1 = some .crashed :=
        congrArg some (answer_of_breaks hbreaks)
      have htail := (h.next (.request now r)).run_eq (not_breaksAt_of_broken hbroken events)
      rw [Translator.run, Translator.run, List.set_cons_zero, hhead, htail]
    | succ i =>
      rw [breaksAt_succ_iff] at hi
      have hhead : (tr.step e).1 = (u.step e).1 := by
        refine h.step_eq fun now r he hbreaks => ?_
        subst he
        exact not_breaksAt_of_broken (isBroken_answer_iff.mpr (Or.inr hbreaks)) events i hi
      rw [Translator.run, Translator.run, List.set_cons_succ, hhead, ih (h.next e) hi]

theorem not_crashed_of_disabled (h : u.cache = .disabled) (events : List Event) :
    some .crashed ∉ (u.run events).1 := by
  induction events generalizing u with
  | nil => simp [run]
  | cons e events ih =>
    have htail : some Answer.crashed ∉ ((u.step e).2.run events).1 :=
      ih (step_disabled_iff.mpr h)
    have hhead : (u.step e).1 ≠ some .crashed := by
      cases e with
      | request now r =>
        have hanswer : (u.answer now r).1 = (u.result now r).1 :=
          answer_of_not_breaks (not_breaks_of_disabled h)
        intro hcrashed
        have hresult := hanswer.symm.trans (Option.some.inj hcrashed)
        cases r <;> simp [result] at hresult
      | lookUp now key => simp [step]
      | forget key => simp [step]
      | flush => simp [step]
    simpa [run, hhead.symm] using htail

theorem Mirrors.run_eq_iff (h : tr.Mirrors u) (events : List Event) :
    (tr.run events).1 = (u.run events).1 ↔ ∀ i, ¬ tr.BreaksAt events i := by
  refine ⟨fun heq i hi => ?_, h.run_eq⟩
  have hlength : i < (u.run events).1.length := by
    obtain ⟨now, r, hr, -⟩ := hi
    rw [length_run]
    exact (List.getElem?_eq_some_iff.mp hr).1
  have hmem := List.mem_set hlength (some Answer.crashed)
  rw [← h.run_of_breaksAt hi, heq] at hmem
  exact not_crashed_of_disabled h.disabled events hmem

theorem run_faithful {tr : Translator} (h : tr.Faithful) (events : List Event) :
    (tr.run events).2.Faithful := by
  induction events generalizing tr with
  | nil => exact h
  | cons e events ih => exact ih (step_faithful h e)

theorem run_settings (tr : Translator) (events : List Event) :
    ∃ cache, (tr.run events).2 = { tr with cache := cache } := by
  induction events generalizing tr with
  | nil => exact ⟨tr.cache, rfl⟩
  | cons e events ih =>
    obtain ⟨next, hnext⟩ := tr.step_settings e
    obtain ⟨cache, hcache⟩ := ih (tr.step e).2
    exact ⟨cache, by rw [Translator.run, hcache, hnext]⟩

theorem run_disabled_iff {tr : Translator} {events : List Event} :
    (tr.run events).2.cache = .disabled ↔ tr.cache = .disabled := by
  induction events generalizing tr with
  | nil => exact Iff.rfl
  | cons e events ih => exact ih.trans step_disabled_iff

theorem faithful_empty (tr : Translator) (label : String) (ttl : Option Nat) :
    (tr.withCache .empty label ttl).Faithful := by
  intro template e he
  rw [withCache, Cache.kept?_empty] at he
  contradiction

theorem mirrors_withCache (tr : Translator) (label : String) (ttl : Option Nat) :
    (tr.withCache .empty label ttl).Mirrors (tr.withCache .disabled label ttl) :=
  ⟨faithful_empty tr label ttl, rfl, rfl, rfl⟩

/-! ### A cache in memory is used -/

/-- Parsing a template leaves an entry for it in a cache that is not disabled, or breaks it. -/
theorem exists_kept_of_parse {tr : Translator} (h : tr.Faithful) (hcache : tr.cache ≠ .disabled)
    (now : Nat) {template : String} {tokens : List Token}
    (hparse : Template.parse template = .ok tokens) :
    (tr.parse now template).2.cache.isBroken = true ∨
      ∃ e, (tr.parse now template).2.cache.kept? (tr.cacheKey template) = some e ∧
        e.value = tokens := by
  rcases hget : tr.cache.get now (tr.cacheKey template) with ⟨found, cache⟩
  cases found with
  | some tokens' =>
    have hsame : tokens' = tokens := by
      have hanswer := (parse_faithful h now template).1
      rw [parse_of_found hget, hparse] at hanswer
      exact Except.ok.inj hanswer
    have hfound : (tr.cache.get now (tr.cacheKey template)).1 = some tokens' :=
      congrArg Prod.fst hget
    have hstays : cache = tr.cache :=
      (congrArg Prod.snd hget).symm.trans (Cache.get_snd_of_found hfound)
    subst hstays
    rw [parse_of_found hget, ← hsame]
    exact Or.inr (Cache.kept?_of_get hfound)
  | none =>
    rw [parse_of_read hget hparse]
    have hcache' : cache ≠ .disabled := by
      rwa [ne_eq, ← Cache.get_eq_disabled_iff, hget] at hcache
    cases hbroken : cache.isBroken with
    | true => exact Or.inl (Cache.isBroken_set_iff.mpr (Or.inl hbroken))
    | false =>
      have hmemory : cache.InMemory := Cache.inMemory_iff.mpr ⟨hcache', hbroken⟩
      cases hdeadline : Cache.deadline? now tr.cacheTtl with
      | none => exact Or.inl (Cache.isBroken_set_iff.mpr (Or.inr ⟨hmemory, hdeadline⟩))
      | some deadline => exact Or.inr ⟨_, hmemory.kept?_set_self hdeadline _ _, rfl⟩

/-- What a cache holds for a template under a key: nothing but its tokens, nothing at all if it is
malformed, and otherwise its tokens as soon as it is parsed, unless the cache is broken. -/
structure Keeps (tr : Translator) (key template : String) : Prop where
  entry : ∀ e, tr.cache.kept? key = some e → Template.parse template = .ok e.value
  malformed : ∀ e, Template.parse template = .error e → tr.cache.kept? key = none
  parsed : ∀ now tokens, Template.parse template = .ok tokens →
    (tr.parse now template).2.cache.isBroken = true ∨
      ∃ e, (tr.parse now template).2.cache.kept? key = some e ∧ e.value = tokens

theorem Faithful.keeps {tr : Translator} (h : tr.Faithful) (hcache : tr.cache ≠ .disabled)
    (template : String) : tr.Keeps (tr.cacheKey template) template where
  entry := h template
  malformed := by
    intro e he
    cases hkept : tr.cache.kept? (tr.cacheKey template) with
    | none => rfl
    | some kept =>
      have hparse := h template kept hkept
      rw [he] at hparse
      cases hparse
  parsed := fun now _ htokens => exists_kept_of_parse h hcache now htokens

/-- Whatever is asked of a translator and whatever others do to its cache, every answer is the one
that it gives without a cache, exactly when no request breaks the cache. A request that does crashes,
and the other answers stay. The cache holds the tokens of templates under their keys. -/
theorem run_withCache_iff (tr : Translator) (label : String) (ttl : Option Nat)
    (events : List Event) :
    (((tr.withCache .empty label ttl).run events).1 =
          ((tr.withCache .disabled label ttl).run events).1 ↔
        ∀ i, ¬ (tr.withCache .empty label ttl).BreaksAt events i) ∧
      (∀ i, (tr.withCache .empty label ttl).BreaksAt events i →
        ((tr.withCache .empty label ttl).run events).1 =
          ((tr.withCache .disabled label ttl).run events).1.set i (some .crashed)) ∧
      ∀ template,
        ((tr.withCache .empty label ttl).run events).2.Keeps (label ++ template) template := by
  have hmirrors := mirrors_withCache tr label ttl
  refine ⟨hmirrors.run_eq_iff events, fun i hi => hmirrors.run_of_breaksAt hi,
    fun template => ?_⟩
  obtain ⟨cache, hcache⟩ := run_settings (tr.withCache .empty label ttl) events
  have hkey : ((tr.withCache .empty label ttl).run events).2.cacheKey template =
      label ++ template := by
    rw [hcache]
    rfl
  have henabled : ((tr.withCache .empty label ttl).run events).2.cache ≠ .disabled := by
    rw [ne_eq, run_disabled_iff]
    simp [withCache, Cache.empty]
  rw [← hkey]
  exact (run_faithful hmirrors.faithful events).keeps henabled template

def bare : Translator where
  pipeline := .ofList []

/-- The longest time to live that a configuration can name. -/
def longestTtl : Nat :=
  (2 ^ 64 - 1) * Cache.second

/-- With the longest time to live the first request crashes. -/
theorem run_withCache_overlong :
    ((bare.withCache .empty "" longestTtl).run
        [.request 0 (.translate "Hi \x7b\x7bname\x7d\x7d" .empty)]).1 ≠
      ((bare.withCache .disabled "" longestTtl).run
        [.request 0 (.translate "Hi \x7b\x7bname\x7d\x7d" .empty)]).1 := by
  rw [ne_eq, (mirrors_withCache bare "" longestTtl).run_eq_iff, not_forall]
  refine ⟨0, not_not.mpr (breaksAt_zero_iff.mpr ⟨0, _, rfl, "Hi \x7b\x7bname\x7d\x7d", rfl, ?_⟩)⟩
  exact
    { inMemory := ⟨[], rfl⟩
      late := ⟨longestTtl, rfl, by decide⟩
      wellFormed := ⟨_, rfl⟩
      missing := rfl }

end Translator

end Placeholder
