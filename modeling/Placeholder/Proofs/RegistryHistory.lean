import Mathlib
import Placeholder.Proofs.EntryKeys
import Placeholder.Temporal.Registry

/-!
# Histories of a registry

What a registry answers for a keyword can be read off the calls that it has seen. A keyword is live
when it was registered since it was last dropped, the last registration counts, and the custom
keywords stand in the order in which they became live. The invariant `Tracks` says so of the two
containers together; every call keeps it. A condition that is built in is lost for good with the
first registration or removal of its keyword that a clearing follows.
-/

namespace Placeholder.Temporal

open Calendar

namespace Registry

/-! ### Histories -/

inductive Event where
  | register (keyword : String) (f : Evaluator)
  | remove (keyword : String)
  | clear

def step (r : Registry) : Event → Registry
  | .register keyword f => r.registerEvaluator keyword f
  | .remove keyword => r.remove keyword
  | .clear => r.clearCustom

/-- The registry after calls in their order. -/
def after (r : Registry) (events : List Event) : Registry :=
  events.foldl step r

theorem after_append_singleton (r : Registry) (events : List Event) (event : Event) :
    r.after (events ++ [event]) = (r.after events).step event := by
  rw [after, List.foldl_append]
  rfl

def Event.registered? (keyword : String) : Event → Option Evaluator
  | register k f => if k = keyword then some f else none
  | remove _ => none
  | clear => none

def Event.drops (keyword : String) : Event → Bool
  | register _ _ => false
  | remove k => k == keyword
  | clear => true

/-- The call registers or removes this very keyword. -/
def Event.names (keyword : String) : Event → Bool
  | register k _ => k == keyword
  | remove k => k == keyword
  | clear => false

/-- The calls since the last one that drops a keyword. -/
def since (keyword : String) (events : List Event) : List Event :=
  events.rtakeWhile fun event => !event.drops keyword

/-- The predicate that was registered last, if none of the later calls drops the keyword. -/
def live? (keyword : String) (events : List Event) : Option Evaluator :=
  ((since keyword events).filterMap (Event.registered? keyword)).getLast?

/-- The place in the history of the first registration since the keyword was last dropped. -/
def birth (keyword : String) (events : List Event) : Nat :=
  events.length - (since keyword events).length +
    (since keyword events).findIdx fun event => (event.registered? keyword).isSome

section

variable {keyword : String} {events : List Event} {event : Event}

theorem since_snoc_of_drops (h : event.drops keyword = true) :
    since keyword (events ++ [event]) = [] :=
  List.rtakeWhile_concat_neg _ _ _ (by simp [h])

theorem since_snoc (h : event.drops keyword = false) :
    since keyword (events ++ [event]) = since keyword events ++ [event] :=
  List.rtakeWhile_concat_pos _ _ _ (by simp [h])

theorem live?_snoc_of_drops (h : event.drops keyword = true) :
    live? keyword (events ++ [event]) = none := by
  rw [live?, since_snoc_of_drops h]
  rfl

theorem live?_snoc (h : event.drops keyword = false) :
    live? keyword (events ++ [event]) = (event.registered? keyword).or (live? keyword events) := by
  rw [live?, since_snoc h, List.filterMap_append, List.getLast?_append]
  cases hregistered : event.registered? keyword <;> simp [hregistered, live?]

theorem length_since_le (keyword : String) (events : List Event) :
    (since keyword events).length ≤ events.length :=
  (List.rtakeWhile_suffix _ _).length_le

theorem exists_registered_of_live {f : Evaluator} (h : live? keyword events = some f) :
    ∃ event ∈ since keyword events, event.registered? keyword = some f := by
  have hmem := List.mem_of_getLast? h
  exact List.mem_filterMap.mp hmem

theorem findIdx_lt_of_live (h : (live? keyword events).isSome = true) :
    (since keyword events).findIdx (fun event => (event.registered? keyword).isSome) <
      (since keyword events).length := by
  obtain ⟨f, hf⟩ := Option.isSome_iff_exists.mp h
  obtain ⟨event, hevent, hregistered⟩ := exists_registered_of_live hf
  exact List.findIdx_lt_length_of_exists ⟨event, hevent, by rw [hregistered]; rfl⟩

theorem birth_lt (h : (live? keyword events).isSome = true) : birth keyword events < events.length := by
  have hindex := findIdx_lt_of_live h
  have hlength := length_since_le keyword events
  unfold birth
  omega

theorem birth_snoc (hlive : (live? keyword events).isSome = true) (h : event.drops keyword = false) :
    birth keyword (events ++ [event]) = birth keyword events := by
  have hindex := findIdx_lt_of_live hlive
  have hlength := length_since_le keyword events
  rw [birth, birth, since_snoc h, List.findIdx_append, if_pos hindex]
  simp only [List.length_append, List.length_singleton]
  omega

theorem birth_snoc_register (f : Evaluator) (h : live? keyword events = none) :
    birth keyword (events ++ [.register keyword f]) = events.length := by
  have hnone : ∀ event ∈ since keyword events, event.registered? keyword = none := by
    have hnil := List.getLast?_eq_none_iff.mp h
    exact List.filterMap_eq_nil_iff.mp hnil
  have hindex : (since keyword events).findIdx (fun event => (event.registered? keyword).isSome) =
      (since keyword events).length := by
    rw [List.findIdx_eq_length]
    intro event hevent
    rw [hnone event hevent]
    rfl
  have hlength := length_since_le keyword events
  rw [birth, since_snoc rfl, List.findIdx_append, hindex, if_neg (lt_irrefl _)]
  simp only [List.length_append, List.length_singleton, Event.registered?, if_true,
    Option.isSome_some, List.findIdx_cons, cond_true]
  omega

end

/-! ### What a registry holds -/

section

variable {r : Registry} {events : List Event}

theorem foldl_remove (r : Registry) (names : List String) :
    names.foldl remove r =
      ⟨r.conditions.filter fun e => !names.contains e.1,
        r.evaluators.filter fun e => !names.contains e.1⟩ := by
  induction names generalizing r with
  | nil => simp
  | cons name names ih =>
    rw [List.foldl_cons, ih, remove, Entries.erase, Entries.erase, List.filter_filter,
      List.filter_filter]
    simp only [List.contains_cons, Bool.not_or, Bool.and_comm, bne]

theorem clearCustom_evaluators (r : Registry) : r.clearCustom.evaluators = [] := by
  rw [clearCustom, foldl_remove, List.filter_eq_nil_iff]
  intro e he
  have hmem : e.1 ∈ r.customKeywords := List.mem_map_of_mem he
  simpa using hmem

theorem condition?_clearCustom (r : Registry) (keyword : String) :
    r.clearCustom.condition? keyword =
      if (r.evaluators.get? keyword).isSome then none else r.condition? keyword := by
  rw [clearCustom, foldl_remove, condition?,
    Entries.get?_filter fun name => !r.customKeywords.contains name]
  by_cases h : keyword ∈ r.evaluators.keys
  · have hsome : (r.evaluators.get? keyword).isSome = true := Entries.contains_iff.mpr h
    rw [if_neg (by simpa [customKeywords] using h), if_pos hsome]
  · rw [if_pos (by simpa [customKeywords] using h), Entries.get?_eq_none_iff.mpr h]
    rfl

theorem condition?_registerEvaluator (r : Registry) (name keyword : String) (f : Evaluator) :
    (r.registerEvaluator name f).condition? keyword =
      if keyword = name then some ⟨[name], f⟩ else r.condition? keyword := by
  change Entries.get? (Entries.insert name _ r.conditions) keyword = _
  by_cases h : keyword = name
  · rw [h, Entries.get?_insert_self, if_pos rfl]
  · rw [Entries.get?_insert_of_ne h, if_neg h]
    rfl

theorem condition?_remove (r : Registry) (name keyword : String) :
    (r.remove name).condition? keyword = if keyword = name then none else r.condition? keyword := by
  by_cases h : keyword = name
  · rw [if_pos h, h]
    exact Entries.get?_erase_self name r.conditions
  · rw [if_neg h]
    exact Entries.get?_erase_of_ne h r.conditions

theorem get?_registerEvaluator (r : Registry) (name keyword : String) (f : Evaluator) :
    (r.registerEvaluator name f).evaluators.get? keyword =
      if keyword = name then some f else r.evaluators.get? keyword := by
  by_cases h : keyword = name
  · rw [if_pos h, h]
    exact Entries.get?_insert_self name f r.evaluators
  · rw [if_neg h]
    exact Entries.get?_insert_of_ne h f r.evaluators

theorem get?_remove (r : Registry) (name keyword : String) :
    (r.remove name).evaluators.get? keyword =
      if keyword = name then none else r.evaluators.get? keyword := by
  by_cases h : keyword = name
  · rw [if_pos h, h]
    exact Entries.get?_erase_self name r.evaluators
  · rw [if_neg h]
    exact Entries.get?_erase_of_ne h r.evaluators

/-- The condition behind a keyword that is not live: the built-in one, as long as no call has named
the keyword. -/
def remaining? (keyword : String) (events : List Event) : Option Condition :=
  if events.any (Event.names keyword) then none else builtIns.get? keyword

/-- What a registry holds after a history. -/
structure Tracks (r : Registry) (events : List Event) : Prop where
  evaluators : ∀ keyword, r.evaluators.get? keyword = live? keyword events
  conditions : ∀ keyword, r.condition? keyword =
    ((live? keyword events).map (Condition.mk [keyword])).or (remaining? keyword events)
  nodup : r.customKeywords.Nodup
  order : r.customKeywords.Pairwise fun a b => birth a events < birth b events

theorem Tracks.mem_iff (h : r.Tracks events) (keyword : String) :
    keyword ∈ r.customKeywords ↔ (live? keyword events).isSome = true := by
  rw [← h.evaluators keyword]
  exact Entries.contains_iff.symm

theorem remaining?_of_live {keyword : String} (h : (live? keyword events).isSome = true) :
    remaining? keyword events = none := by
  obtain ⟨f, hf⟩ := Option.isSome_iff_exists.mp h
  obtain ⟨event, hevent, hregistered⟩ := exists_registered_of_live hf
  have hmem : event ∈ events := (List.rtakeWhile_suffix _ _).subset hevent
  have hnames : event.names keyword = true := by
    cases event with
    | register k g =>
      by_cases hk : k = keyword
      · simp [Event.names, hk]
      · simp [Event.registered?, hk] at hregistered
    | remove k => cases hregistered
    | clear => cases hregistered
  rw [remaining?, if_pos (List.any_eq_true.mpr ⟨event, hmem, hnames⟩)]

theorem remaining?_snoc (keyword : String) (events : List Event) (event : Event) :
    remaining? keyword (events ++ [event]) =
      if event.names keyword then none else remaining? keyword events := by
  rw [remaining?, remaining?, List.any_append, List.any_cons, List.any_nil, Bool.or_false]
  cases events.any (Event.names keyword) <;> cases event.names keyword <;> rfl

theorem tracks_fresh : fresh.Tracks [] where
  evaluators _ := rfl
  conditions _ := rfl
  nodup := List.nodup_nil
  order := List.Pairwise.nil

/-- A history after which no keyword but one may have been born anew keeps the order of others. -/
theorem Tracks.order_snoc (h : r.Tracks events) {event : Event} {names : List String}
    (hsub : names.Sublist r.customKeywords) (hkept : ∀ name ∈ names, event.drops name = false) :
    names.Pairwise fun a b => birth a (events ++ [event]) < birth b (events ++ [event]) := by
  refine (h.order.sublist hsub).imp_of_mem ?_
  intro a b ha hb hlt
  rw [birth_snoc ((h.mem_iff a).mp (hsub.subset ha)) (hkept a ha),
    birth_snoc ((h.mem_iff b).mp (hsub.subset hb)) (hkept b hb)]
  exact hlt

theorem live?_snoc_register (name keyword : String) (f : Evaluator) (events : List Event) :
    live? keyword (events ++ [.register name f]) =
      if keyword = name then some f else live? keyword events := by
  rw [live?_snoc rfl, Event.registered?]
  by_cases hk : keyword = name
  · rw [if_pos hk.symm, if_pos hk, Option.some_or]
  · rw [if_neg (Ne.symm hk), if_neg hk, Option.none_or]

theorem Tracks.register (h : r.Tracks events) (name : String) (f : Evaluator) :
    (r.registerEvaluator name f).Tracks (events ++ [.register name f]) := by
  have hkept : ∀ k ∈ r.customKeywords, (Event.register name f).drops k = false := fun _ _ => rfl
  have horder := h.order_snoc (List.Sublist.refl _) hkept
  have hkeys : (r.registerEvaluator name f).customKeywords = r.customKeywords ∨
      name ∉ r.customKeywords ∧
        (r.registerEvaluator name f).customKeywords = r.customKeywords ++ [name] := by
    by_cases hname : name ∈ r.customKeywords
    · exact Or.inl (Entries.keys_insert_of_mem f hname)
    · exact Or.inr ⟨hname, Entries.keys_insert_of_not_mem f hname⟩
  refine ⟨fun keyword => ?evaluators, fun keyword => ?conditions, ?nodup, ?order⟩
  case evaluators => rw [get?_registerEvaluator, live?_snoc_register, h.evaluators]
  case conditions =>
    rw [condition?_registerEvaluator, live?_snoc_register, h.conditions, remaining?_snoc]
    by_cases hk : keyword = name
    · rw [if_pos hk, if_pos hk, hk]
      rfl
    · rw [if_neg hk, if_neg hk, if_neg (by simpa [Event.names] using Ne.symm hk)]
  case nodup =>
    rcases hkeys with hkeys | ⟨hname, hkeys⟩
    · rw [hkeys]
      exact h.nodup
    · rw [hkeys]
      exact List.nodup_append_comm.mp (List.nodup_cons.mpr ⟨hname, h.nodup⟩)
  case order =>
    rcases hkeys with hkeys | ⟨hname, hkeys⟩
    · rw [hkeys]
      exact horder
    · -- The keyword is born by this call, after all keywords that are live.
      have hdead : live? name events = none := by
        simpa using mt (h.mem_iff name).mpr hname
      rw [hkeys, List.pairwise_append]
      refine ⟨horder, List.pairwise_singleton _ _, ?_⟩
      intro a ha b hb
      obtain rfl := List.mem_singleton.mp hb
      have hlive := (h.mem_iff a).mp ha
      rw [birth_snoc_register f hdead, birth_snoc hlive rfl]
      exact birth_lt hlive

theorem live?_snoc_remove (name keyword : String) (events : List Event) :
    live? keyword (events ++ [.remove name]) =
      if keyword = name then none else live? keyword events := by
  by_cases hk : keyword = name
  · rw [if_pos hk, live?_snoc_of_drops (by simp [Event.drops, hk])]
  · rw [if_neg hk, live?_snoc (by simpa [Event.drops] using Ne.symm hk)]
    rfl

theorem Tracks.remove (h : r.Tracks events) (name : String) :
    (r.remove name).Tracks (events ++ [.remove name]) := by
  have hkeys : (r.remove name).customKeywords = r.customKeywords.filter (· != name) :=
    Entries.keys_erase name r.evaluators
  refine ⟨fun keyword => ?evaluators, fun keyword => ?conditions, ?nodup, ?order⟩
  case evaluators => rw [get?_remove, live?_snoc_remove, h.evaluators]
  case conditions =>
    rw [condition?_remove, live?_snoc_remove, h.conditions, remaining?_snoc]
    by_cases hk : keyword = name
    · rw [if_pos hk, if_pos hk, if_pos (by simp [Event.names, hk])]
      rfl
    · rw [if_neg hk, if_neg hk, if_neg (by simpa [Event.names] using Ne.symm hk)]
  case nodup =>
    rw [hkeys]
    exact h.nodup.filter _
  case order =>
    rw [hkeys]
    refine h.order_snoc List.filter_sublist ?_
    intro k hk
    have hne : k ≠ name := by simpa using (List.mem_filter.mp hk).2
    simpa [Event.drops] using hne.symm

theorem Tracks.clear (h : r.Tracks events) : r.clearCustom.Tracks (events ++ [.clear]) := by
  have hdead : ∀ keyword, live? keyword (events ++ [.clear]) = none :=
    fun _ => live?_snoc_of_drops rfl
  have hkeys : r.clearCustom.customKeywords = [] := by
    rw [customKeywords, clearCustom_evaluators]
    rfl
  refine ⟨fun keyword => ?evaluators, fun keyword => ?conditions, ?nodup, ?order⟩
  case evaluators =>
    rw [clearCustom_evaluators, hdead]
    rfl
  case conditions =>
    rw [condition?_clearCustom, h.evaluators, h.conditions, hdead, remaining?_snoc]
    cases hlive : live? keyword events with
    | none => rfl
    | some f =>
      rw [remaining?_of_live (by rw [hlive]; rfl)]
      rfl
  case nodup =>
    rw [hkeys]
    exact List.nodup_nil
  case order =>
    rw [hkeys]
    exact List.Pairwise.nil

theorem Tracks.step (h : r.Tracks events) (event : Event) :
    (r.step event).Tracks (events ++ [event]) := by
  cases event with
  | register name f => exact h.register name f
  | remove name => exact h.remove name
  | clear => exact h.clear

theorem tracks_after (events : List Event) : (fresh.after events).Tracks events := by
  induction events using List.reverseRecOn with
  | nil => exact tracks_fresh
  | append_singleton events event ih =>
    rw [after_append_singleton]
    exact ih.step event

/-! ### Clearing -/

theorem get?_builtIns {name : String} {f : Evaluator} (h : builtIn? name = some f) :
    builtIns.get? name = some ⟨[name], f⟩ := by
  unfold builtIn? at h
  split at h <;> cases h <;> rfl

/-- After a clearing, a built-in keyword that has never been named has its condition, and any other
keyword has none. -/
theorem condition?_cleared (events : List Event) {name : String} {f : Evaluator}
    (hf : builtIn? name = some f) :
    (fresh.after events).clearCustom.condition? name =
      if events.any (Event.names name) then none else some ⟨[name], f⟩ := by
  have hcondition := (tracks_after events).clear.conditions name
  rw [live?_snoc_of_drops rfl, remaining?_snoc, remaining?, get?_builtIns hf] at hcondition
  exact hcondition

/-- After a clearing there are no custom keywords, and a built-in keyword has its meaning exactly
when no call before has registered or removed this keyword. -/
theorem clearCustom_after (events : List Event) :
    (fresh.after events).clearCustom.customKeywords = [] ∧
      ∀ name f, builtIn? name = some f →
        (((fresh.after events).clearCustom.has name = true ∧
            ∀ t, (fresh.after events).clearCustom.evaluate name t = f t) ↔
          ∀ event ∈ events, event.names name = false) := by
  constructor
  · rw [customKeywords, clearCustom_evaluators]
    rfl
  · intro name f hf
    have hcondition := condition?_cleared events hf
    have hhas : (fresh.after events).clearCustom.has name =
        ((fresh.after events).clearCustom.condition? name).isSome := by
      rw [has, clearCustom_evaluators, Entries.contains, Entries.get?_nil]
      exact Bool.or_false _
    constructor
    · rintro ⟨hkept, -⟩ event hevent
      rw [hhas, hcondition] at hkept
      by_contra hnames
      rw [if_pos (List.any_eq_true.mpr ⟨event, hevent, by simpa using hnames⟩)] at hkept
      cases hkept
    · intro hnames
      have hany : ¬ events.any (Event.names name) = true := by
        simpa using hnames
      rw [if_neg hany] at hcondition
      refine ⟨by rw [hhas, hcondition]; rfl, fun t => ?_⟩
      rw [evaluate, hcondition]
      rfl

/-- The history of the following statement: one custom keyword is cleared and registered again, and
another one is dropped. -/
def payrollHistory : List Event :=
  [.register "payday" fun t => t.date.day == 31, .clear, .register "payday" fun t => t.date.day == 30,
    .register "shift" fun t => t.time.hour < 8, .remove "shift"]

theorem clearCustom_payroll :
    builtIn? "weekend" = some (fun t => t.isWeekend) ∧
      (∀ event ∈ payrollHistory, event.names "weekend" = false) ∧
      (fresh.after payrollHistory).clearCustom.customKeywords = [] ∧
      (fresh.after payrollHistory).clearCustom.has "weekend" = true ∧
      ∀ t, (fresh.after payrollHistory).clearCustom.evaluate "weekend" t = t.isWeekend := by
  have hnames : ∀ event ∈ payrollHistory, event.names "weekend" = false := by
    simp [payrollHistory, Event.names]
  obtain ⟨hcustom, hbuiltIns⟩ := clearCustom_after payrollHistory
  have hkept := (hbuiltIns "weekend" (fun t => t.isWeekend) rfl).mpr hnames
  exact ⟨rfl, hnames, hcustom, hkept.1, hkept.2⟩

/-- Clearing after a registration under a built-in keyword leaves nothing under the keyword. -/
theorem clearCustom_overridden :
    (fresh.after [.register "weekend" fun _ => true]).clearCustom.has "weekend" = false ∧
      ∀ t, (fresh.after [.register "weekend" fun _ => true]).clearCustom.evaluate "weekend" t =
        false :=
  ⟨rfl, fun _ => rfl⟩

end

end Registry

end Placeholder.Temporal
