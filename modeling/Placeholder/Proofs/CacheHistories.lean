import Mathlib
import Placeholder.Proofs.CacheRuns
import Placeholder.Proofs.EntryKeys

/-!
# Histories of a cache

What a cache in memory answers can be read off the calls that it has seen. The last value that was
set under a key counts until its deadline comes, unless the key is forgotten or the cache emptied
behind it. The entry itself stays longer: until somebody asks for it after its deadline. What one
call leaves of an entry and what one more call leaves of a history is the same, and a call changes
the entry of its own key alone. All this holds until a call asks for a deadline behind the last
instant, which breaks the cache.
-/

namespace Placeholder

/-- The deadline of an entry, if it has one, is still to come. -/
def Kept.Counts {α : Type} (e : Kept α) (now : Nat) : Prop :=
  ∀ t ∈ e.deadline, now < t

theorem Kept.isExpired_eq_false_iff {α : Type} {e : Kept α} {now : Nat} :
    e.isExpired now = false ↔ e.Counts now := by
  obtain ⟨value, deadline⟩ := e
  cases deadline <;> simp [isExpired, Counts]

theorem Kept.isExpired_eq_true_iff {α : Type} {e : Kept α} {now : Nat} :
    e.isExpired now = true ↔ ¬ e.Counts now := by
  rw [← isExpired_eq_false_iff, Bool.not_eq_false]

theorem Kept.Counts.earlier {α : Type} {e : Kept α} {now before : Nat} (h : e.Counts now)
    (hbefore : before ≤ now) : e.Counts before :=
  fun t ht => lt_of_le_of_lt hbefore (h t ht)

namespace Cache

variable {α : Type}

/-! ### Entries after an operation -/

section

variable {c : Cache α} {now : Nat} {key other : String} {e : Kept α}

theorem kept?_set_of_ne (c : Cache α) {now : Nat} {ttl deadline : Option Nat}
    (hdeadline : deadline? now ttl = some deadline) (v : α) (h : other ≠ key) :
    (c.set now key v ttl).kept? other = c.kept? other := by
  cases c with
  | disabled => rfl
  | broken => rfl
  | memory kept =>
    rcases set_memory kept now key v ttl with ⟨deadline', -, hset⟩ | ⟨hnone, -⟩
    · rw [hset]
      exact Entries.get?_insert_of_ne h _ kept
    · rw [hnone] at hdeadline
      contradiction

theorem kept?_forget_self (c : Cache α) (key : String) : (c.forget key).kept? key = none := by
  cases c with
  | disabled => rfl
  | broken => rfl
  | memory kept => exact Entries.get?_erase_self key kept

theorem kept?_forget_of_ne (c : Cache α) (h : other ≠ key) :
    (c.forget key).kept? other = c.kept? other := by
  cases c with
  | disabled => rfl
  | broken => rfl
  | memory kept => exact Entries.get?_erase_of_ne h kept

theorem kept?_flush (c : Cache α) (key : String) : c.flush.kept? key = none := by
  cases c <;> rfl

theorem get_of_missing (now : Nat) (h : c.kept? key = none) : c.get now key = (none, c) := by
  cases c with
  | disabled => rfl
  | broken => rfl
  | memory kept =>
    change kept.get? key = none at h
    simp only [get, h]

theorem get_of_counts (h : c.kept? key = some e) (he : e.Counts now) :
    c.get now key = (some e.value, c) := by
  cases c with
  | disabled => contradiction
  | broken => contradiction
  | memory kept =>
    change kept.get? key = some e at h
    simp only [get, h, Kept.isExpired_eq_false_iff.mpr he, Bool.false_eq_true, if_false]

theorem get_of_expired (h : c.kept? key = some e) (he : ¬ e.Counts now) :
    c.get now key = (none, c.forget key) := by
  cases c with
  | disabled => contradiction
  | broken => contradiction
  | memory kept =>
    change kept.get? key = some e at h
    simp only [get, h, Kept.isExpired_eq_true_iff.mpr he, if_true, forget]

theorem get_fst_eq_some_iff {v : α} :
    (c.get now key).1 = some v ↔ ∃ e, c.kept? key = some e ∧ e.value = v ∧ e.Counts now := by
  constructor
  · intro h
    obtain ⟨e, he, hvalue⟩ := kept?_of_get h
    refine ⟨e, he, hvalue, ?_⟩
    by_contra hexpired
    rw [get_of_expired he hexpired] at h
    contradiction
  · rintro ⟨e, he, rfl, hcounts⟩
    rw [get_of_counts he hcounts]

/-- What is found under a key depends on the entry under this key. -/
theorem get_fst_congr {d : Cache α} (now : Nat) (h : c.kept? key = d.kept? key) :
    (c.get now key).1 = (d.get now key).1 := by
  apply Option.ext
  intro v
  rw [get_fst_eq_some_iff, get_fst_eq_some_iff, h]

theorem kept?_get_self :
    (c.get now key).2.kept? key = some e ↔ c.kept? key = some e ∧ e.Counts now := by
  cases hkept : c.kept? key with
  | none => simp [get_of_missing now hkept, hkept]
  | some f =>
    by_cases hf : f.Counts now
    · rw [get_of_counts hkept hf, hkept]
      exact ⟨fun h => ⟨h, Option.some.inj h ▸ hf⟩, And.left⟩
    · rw [get_of_expired hkept hf, kept?_forget_self]
      refine ⟨fun h => by contradiction, fun ⟨h, he⟩ => ?_⟩
      exact absurd (Option.some.inj h ▸ he) hf

theorem kept?_get_of_ne (c : Cache α) (now : Nat) (h : other ≠ key) :
    (c.get now key).2.kept? other = c.kept? other := by
  cases hkept : c.kept? key with
  | none => rw [get_of_missing now hkept]
  | some e =>
    by_cases he : e.Counts now
    · rw [get_of_counts hkept he]
    · rw [get_of_expired hkept he, kept?_forget_of_ne c h]

/-- A look at one key leaves the entries that have not expired under this key. -/
theorem kept?_get_iff :
    (c.get now key).2.kept? other = some e ↔
      c.kept? other = some e ∧ (key = other → e.Counts now) := by
  by_cases h : other = key
  · subst h
    simpa using kept?_get_self
  · rw [kept?_get_of_ne c now h]
    exact ⟨fun he => ⟨he, fun hkey => absurd hkey.symm h⟩, And.left⟩

end

/-! ### Calls -/

inductive Operation (α : Type) where
  | set (key : String) (value : α) (ttl : Option Nat)
  | get (key : String)
  | has (key : String)
  | forget (key : String)
  | flush

structure Call (α : Type) where
  now : Nat
  operation : Operation α

def step (c : Cache α) (call : Call α) : Cache α :=
  match call.operation with
  | .set key value ttl => c.set call.now key value ttl
  | .get key => (c.get call.now key).2
  | .has key => (c.has call.now key).2
  | .forget key => c.forget key
  | .flush => c.flush

/-- The cache that starts empty, after calls in their order. -/
def ofHistory (history : List (Call α)) : Cache α :=
  history.foldl step empty

theorem ofHistory_concat (history : List (Call α)) (call : Call α) :
    ofHistory (history ++ [call]) = (ofHistory history).step call := by
  rw [ofHistory, List.foldl_append]
  rfl

/-- The one key that an operation is about. -/
def Operation.key? : Operation α → Option String
  | set key _ _ => some key
  | get key => some key
  | has key => some key
  | forget key => some key
  | flush => none

/-- The operation asks for this key. -/
def Operation.LooksUp (key : String) : Operation α → Prop
  | set _ _ _ => False
  | get k => k = key
  | has k => k = key
  | forget _ => False
  | flush => False

/-- Whatever was set under this key before does not matter any more. -/
def Operation.Overrides (key : String) : Operation α → Prop
  | set k _ _ => k = key
  | get _ => False
  | has _ => False
  | forget k => k = key
  | flush => True

/-- There is an instant for the deadline that the call asks for. -/
def Call.InTime (call : Call α) : Prop :=
  ∀ key v ttl, call.operation = .set key v (some ttl) → call.now + ttl ≤ lastInstant

/-- The call sets the key, and the entry has its value and its deadline. -/
def Call.Stores (call : Call α) (key : String) (e : Kept α) : Prop :=
  ∃ ttl, call.operation = .set key e.value ttl ∧ e.deadline = ttl.map (call.now + ·)

/-- An entry is what the last call that sets the key stores, and none of the later calls forgets the
key or empties the cache. -/
def LastSet (history : List (Call α)) (key : String) (e : Kept α) (later : List (Call α)) : Prop :=
  (∃ earlier call, history = earlier ++ call :: later ∧ call.Stores key e) ∧
    ∀ call ∈ later, ¬ call.operation.Overrides key

/-- An entry was set last, and whoever asked for it since has found it in time. -/
def Remains (history : List (Call α)) (key : String) (e : Kept α) : Prop :=
  ∃ later, LastSet history key e later ∧
    ∀ call ∈ later, call.operation.LooksUp key → e.Counts call.now

section

variable {history : List (Call α)} {call : Call α} {key : String} {e : Kept α}

theorem stores_set_iff {now : Nat} {v : α} {ttl : Option Nat} :
    Call.Stores ⟨now, .set key v ttl⟩ key e ↔ e = ⟨v, ttl.map (now + ·)⟩ := by
  constructor
  · rintro ⟨ttl', hset, hdeadline⟩
    obtain ⟨-, rfl, rfl⟩ := Operation.set.inj hset
    obtain ⟨value, deadline⟩ := e
    exact congrArg _ hdeadline
  · rintro rfl
    exact ⟨ttl, rfl, rfl⟩

theorem deadline?_of_inTime {now : Nat} {v : α} {ttl : Option Nat}
    (h : Call.InTime ⟨now, .set key v ttl⟩) : deadline? now ttl = some (ttl.map (now + ·)) := by
  cases ttl with
  | none => rfl
  | some t => simp [deadline?, h key v t rfl]

/-- A call that is not in time sets an entry whose deadline is no instant. -/
theorem not_inTime_iff :
    ¬ call.InTime ↔ ∃ key v ttl, call.operation = .set key v ttl ∧
      deadline? call.now ttl = none := by
  simp only [Call.InTime, deadline?_eq_none_iff, not_forall, not_le, exists_prop]
  constructor
  · rintro ⟨key, v, ttl, hset, hlate⟩
    exact ⟨key, v, some ttl, hset, ttl, rfl, hlate⟩
  · rintro ⟨key, v, -, hset, ttl, rfl, hlate⟩
    exact ⟨key, v, ttl, hset, hlate⟩

theorem not_remains_nil : ¬ Remains [] key e := by
  rintro ⟨later, ⟨⟨earlier, call, hsplit, -⟩, -⟩, -⟩
  simp at hsplit

theorem remains_of_stores (h : call.Stores key e) : Remains (history ++ [call]) key e :=
  ⟨[], ⟨⟨history, call, rfl, h⟩, by simp⟩, by simp⟩

theorem Remains.concat (h : Remains history key e) (hover : ¬ call.operation.Overrides key)
    (hcounts : call.operation.LooksUp key → e.Counts call.now) :
    Remains (history ++ [call]) key e := by
  obtain ⟨later, ⟨⟨earlier, first, rfl, hfirst⟩, hlater⟩, hlooks⟩ := h
  refine ⟨later ++ [call], ⟨⟨earlier, first, by simp, hfirst⟩, ?_⟩, ?_⟩
  · rw [List.forall_mem_append]
    exact ⟨hlater, List.forall_mem_singleton.mpr hover⟩
  · rw [List.forall_mem_append]
    exact ⟨hlooks, List.forall_mem_singleton.mpr hcounts⟩

/-- What remains after one more call. -/
theorem remains_concat_iff :
    Remains (history ++ [call]) key e ↔
      call.Stores key e ∨ Remains history key e ∧ ¬ call.operation.Overrides key ∧
        (call.operation.LooksUp key → e.Counts call.now) := by
  constructor
  · rintro ⟨later, ⟨⟨earlier, first, hsplit, hfirst⟩, hlater⟩, hlooks⟩
    rcases List.eq_nil_or_concat' later with rfl | ⟨rest, last, rfl⟩
    · obtain ⟨-, hlast⟩ := List.append_inj' hsplit rfl
      obtain rfl : call = first := (List.cons.inj hlast).1
      exact Or.inl hfirst
    · have hends : history ++ [call] = (earlier ++ first :: rest) ++ [last] := by
        simpa using hsplit
      obtain ⟨rfl, hlast⟩ := List.append_inj' hends rfl
      obtain rfl : call = last := (List.cons.inj hlast).1
      rw [List.forall_mem_append, List.forall_mem_singleton] at hlater hlooks
      exact Or.inr ⟨⟨rest, ⟨⟨earlier, first, rfl, hfirst⟩, hlater.1⟩, hlooks.1⟩, hlater.2, hlooks.2⟩
  · rintro (hstores | ⟨hremains, hover, hcounts⟩)
    · exact remains_of_stores hstores
    · exact hremains.concat hover hcounts

end

/-! ### One call -/

section

variable {c : Cache α} {call : Call α} {key other : String} {e : Kept α}

theorem kept?_step_of_ne (c : Cache α) (hcall : call.InTime)
    (hkey : call.operation.key? = some key) (h : other ≠ key) :
    (c.step call).kept? other = c.kept? other := by
  obtain ⟨now, operation⟩ := call
  cases operation with
  | set k value ttl =>
    obtain rfl := Option.some.inj hkey
    exact kept?_set_of_ne c (deadline?_of_inTime hcall) value h
  | get k =>
    obtain rfl := Option.some.inj hkey
    exact kept?_get_of_ne c now h
  | has k =>
    obtain rfl := Option.some.inj hkey
    exact kept?_get_of_ne c now h
  | forget k =>
    obtain rfl := Option.some.inj hkey
    exact kept?_forget_of_ne c h
  | flush => cases hkey

/-- What a call leaves under a key. -/
theorem kept?_step_iff (hc : c.InMemory) (hcall : call.InTime) :
    (c.step call).kept? key = some e ↔
      call.Stores key e ∨ c.kept? key = some e ∧ ¬ call.operation.Overrides key ∧
        (call.operation.LooksUp key → e.Counts call.now) := by
  obtain ⟨now, operation⟩ := call
  cases operation with
  | set k value ttl =>
    by_cases hk : key = k
    · subst hk
      have hset : (c.step ⟨now, .set key value ttl⟩).kept? key = some ⟨value, ttl.map (now + ·)⟩ :=
        hc.kept?_set_self (deadline?_of_inTime hcall) key value
      rw [hset, stores_set_iff, Option.some.injEq, eq_comm]
      simp [Operation.Overrides]
    · have hset : (c.step ⟨now, .set k value ttl⟩).kept? key = c.kept? key :=
        kept?_set_of_ne c (deadline?_of_inTime hcall) value hk
      simp [hset, Call.Stores, Operation.Overrides, Operation.LooksUp, Ne.symm hk]
  | get k =>
    have hget : (c.step ⟨now, .get k⟩).kept? key = some e ↔
        c.kept? key = some e ∧ (k = key → e.Counts now) := kept?_get_iff
    simp [hget, Call.Stores, Operation.Overrides, Operation.LooksUp]
  | has k =>
    have hget : (c.step ⟨now, .has k⟩).kept? key = some e ↔
        c.kept? key = some e ∧ (k = key → e.Counts now) := kept?_get_iff
    simp [hget, Call.Stores, Operation.Overrides, Operation.LooksUp]
  | forget k =>
    by_cases hk : key = k
    · subst hk
      have hforget : (c.step ⟨now, .forget key⟩).kept? key = none := kept?_forget_self c key
      simp [hforget, Call.Stores, Operation.Overrides]
    · have hforget : (c.step ⟨now, .forget k⟩).kept? key = c.kept? key := kept?_forget_of_ne c hk
      simp [hforget, Call.Stores, Operation.Overrides, Operation.LooksUp, Ne.symm hk]
  | flush =>
    have hflush : (c.step ⟨now, .flush⟩).kept? key = none := kept?_flush c key
    simp [hflush, Call.Stores, Operation.Overrides]

theorem step_broken (call : Call α) : (broken : Cache α).step call = broken := by
  obtain ⟨now, operation⟩ := call
  cases operation <;> rfl

/-- A call that is not in time breaks a cache in memory. -/
theorem step_of_not_inTime (hc : c.InMemory) (hcall : ¬ call.InTime) : c.step call = broken := by
  obtain ⟨key, v, ttl, hset, hnone⟩ := not_inTime_iff.mp hcall
  obtain ⟨kept, rfl⟩ := hc
  rcases set_memory kept call.now key v ttl with ⟨deadline, hsome, -⟩ | ⟨-, hbroken⟩
  · rw [hnone] at hsome
    contradiction
  · rw [step, hset]
    exact hbroken

end

/-! ### Sizes -/

/-- A cache in memory with one entry for each of its keys. -/
def OneEach (c : Cache α) : Prop :=
  ∃ kept, c = memory kept ∧ kept.keys.Nodup

section

variable {c : Cache α} {now : Nat} {key : String} {e : Kept α}

theorem OneEach.inMemory (h : c.OneEach) : c.InMemory := by
  obtain ⟨kept, rfl, -⟩ := h
  exact ⟨kept, rfl⟩

theorem oneEach_empty : (empty : Cache α).OneEach :=
  ⟨[], rfl, List.nodup_nil⟩

theorem OneEach.set (h : c.OneEach) {ttl deadline : Option Nat}
    (hdeadline : deadline? now ttl = some deadline) (key : String) (v : α) :
    (c.set now key v ttl).OneEach := by
  obtain ⟨kept, rfl, hnodup⟩ := h
  rcases set_memory kept now key v ttl with ⟨deadline', -, hset⟩ | ⟨hnone, -⟩
  · exact ⟨_, hset, Entries.nodup_keys_insert key _ hnodup⟩
  · rw [hnone] at hdeadline
    contradiction

theorem OneEach.forget (h : c.OneEach) (key : String) : (c.forget key).OneEach := by
  obtain ⟨kept, rfl, hnodup⟩ := h
  refine ⟨_, rfl, ?_⟩
  rw [Entries.keys_erase]
  exact hnodup.filter _

theorem OneEach.get (h : c.OneEach) (now : Nat) (key : String) : (c.get now key).2.OneEach := by
  cases hkept : c.kept? key with
  | none => rwa [get_of_missing now hkept]
  | some e =>
    by_cases he : e.Counts now
    · rwa [get_of_counts hkept he]
    · rw [get_of_expired hkept he]
      exact h.forget key

theorem OneEach.step (h : c.OneEach) {call : Call α} (hcall : call.InTime) :
    (c.step call).OneEach := by
  obtain ⟨now, operation⟩ := call
  cases operation with
  | set key value ttl => exact h.set (deadline?_of_inTime hcall) key value
  | get key => exact h.get now key
  | has key => exact h.get now key
  | forget key => exact h.forget key
  | flush =>
    obtain ⟨kept, rfl, -⟩ := h
    exact oneEach_empty

/-- The size is the number of keys with an entry. -/
theorem OneEach.size_eq (h : c.OneEach) : c.size = {key | ∃ e, c.kept? key = some e}.ncard := by
  obtain ⟨kept, rfl, hnodup⟩ := h
  have hkeys : {key | ∃ e, (memory kept).kept? key = some e} = ↑kept.keys.toFinset := by
    ext key
    change (∃ e, kept.get? key = some e) ↔ _
    rw [← Option.isSome_iff_exists, List.coe_toFinset]
    exact Entries.contains_iff
  rw [hkeys, Set.ncard_coe_finset, List.toFinset_card_of_nodup hnodup, Entries.keys,
    List.length_map]
  rfl

theorem OneEach.size_forget (h : c.OneEach) (hkept : c.kept? key = some e) :
    (c.forget key).size + 1 = c.size := by
  obtain ⟨kept, rfl, hnodup⟩ := h
  have hmem : key ∈ kept.keys := by
    rw [← Entries.contains_iff, Entries.contains, Option.isSome_iff_exists]
    exact ⟨e, hkept⟩
  have hlength : (Entries.erase key kept).length = (kept.keys.erase key).length := by
    rw [hnodup.erase_eq_filter, ← Entries.keys_erase, Entries.keys, List.length_map]
  change (Entries.erase key kept).length + 1 = kept.length
  rw [hlength, List.length_erase_add_one hmem, Entries.keys, List.length_map]

end

/-! ### Histories -/

section

variable {history : List (Call α)} {now : Nat} {key : String} {e : Kept α}

theorem oneEach_ofHistory (h : ∀ call ∈ history, call.InTime) : (ofHistory history).OneEach := by
  induction history using List.reverseRecOn with
  | nil => exact oneEach_empty
  | append_singleton history call ih =>
    rw [List.forall_mem_append, List.forall_mem_singleton] at h
    rw [ofHistory_concat]
    exact (ih h.1).step h.2

/-- An entry stands in the cache as long as it remains in the history. -/
theorem kept?_ofHistory_iff (h : ∀ call ∈ history, call.InTime) :
    (ofHistory history).kept? key = some e ↔ Remains history key e := by
  induction history using List.reverseRecOn with
  | nil => exact iff_of_false (by simp [ofHistory, kept?_empty]) not_remains_nil
  | append_singleton history call ih =>
    rw [List.forall_mem_append, List.forall_mem_singleton] at h
    rw [ofHistory_concat, kept?_step_iff (oneEach_ofHistory h.1).inMemory h.2, ih h.1,
      remains_concat_iff]

/-- The first call that is not in time breaks the cache, and it stays broken. -/
theorem ofHistory_eq_broken {call : Call α} (hmem : call ∈ history) (hcall : ¬ call.InTime) :
    ofHistory history = broken := by
  induction history using List.reverseRecOn generalizing call with
  | nil => cases hmem
  | append_singleton history last ih =>
    rw [ofHistory_concat]
    by_cases hbefore : ∀ call ∈ history, call.InTime
    · rcases List.mem_append.mp hmem with hearlier | hlast
      · exact absurd (hbefore call hearlier) hcall
      · obtain rfl := List.mem_singleton.mp hlast
        exact step_of_not_inTime (oneEach_ofHistory hbefore).inMemory hcall
    · obtain ⟨earlier, hearlier, hlate⟩ : ∃ call ∈ history, ¬ call.InTime := by
        simpa using hbefore
      rw [ih hearlier hlate, step_broken]

/-- An entry that counts has been found in time by everybody before. -/
theorem remains_iff_of_counts (hnow : ∀ call ∈ history, call.now ≤ now) (he : e.Counts now) :
    Remains history key e ↔ ∃ later, LastSet history key e later := by
  constructor
  · rintro ⟨later, hset, -⟩
    exact ⟨later, hset⟩
  · rintro ⟨later, hset⟩
    refine ⟨later, hset, fun call hcall _ => he.earlier (hnow call ?_)⟩
    obtain ⟨⟨earlier, first, rfl, -⟩, -⟩ := hset
    exact List.mem_append_right _ (List.mem_cons_of_mem _ hcall)

end

/-- The cache is the map with deadlines that its history describes. What it answers at an instant is
the value set last as long as it counts, and the last call has changed nothing for the other keys.
The size lags behind: an expired entry is in it until it is looked at. -/
structure IsDeadlineMap (history : List (Call α)) : Prop where
  get_iff : ∀ now key v, (∀ call ∈ history, call.now ≤ now) →
    (((ofHistory history).get now key).1 = some v ↔
      ∃ e later, LastSet history key e later ∧ e.value = v ∧ e.Counts now)
  has_agrees : ∀ now key,
    (((ofHistory history).has now key).1 = true ↔
        ∃ v, ((ofHistory history).get now key).1 = some v) ∧
      ((ofHistory history).has now key).2 = ((ofHistory history).get now key).2
  frame : ∀ before call, history = before ++ [call] →
    ∀ key other, call.operation.key? = some key → other ≠ key →
      ∀ now, ((ofHistory history).get now other).1 = ((ofHistory before).get now other).1
  entry_iff : ∀ key e, (ofHistory history).kept? key = some e ↔ Remains history key e
  expired : ∀ now key e, (ofHistory history).kept? key = some e → ¬ e.Counts now →
    ((ofHistory history).get now key).1 = none ∧
      (∀ other, ((ofHistory history).get now key).2.kept? other =
        if other = key then none else (ofHistory history).kept? other) ∧
      ((ofHistory history).get now key).2.size + 1 = (ofHistory history).size
  size_eq : (ofHistory history).size = {key | ∃ e, Remains history key e}.ncard

/-- Instants that run backwards do no harm, as long as no call comes after the question. -/
theorem IsDeadlineMap.of_inTime {history : List (Call α)} (h : ∀ call ∈ history, call.InTime) :
    IsDeadlineMap history where
  get_iff := by
    intro now key v hnow
    rw [get_fst_eq_some_iff]
    refine exists_congr fun e => ?_
    rw [kept?_ofHistory_iff h]
    constructor
    · rintro ⟨hremains, hvalue, he⟩
      obtain ⟨later, hset⟩ := (remains_iff_of_counts hnow he).mp hremains
      exact ⟨later, hset, hvalue, he⟩
    · rintro ⟨later, hset, hvalue, he⟩
      exact ⟨(remains_iff_of_counts hnow he).mpr ⟨later, hset⟩, hvalue, he⟩
  has_agrees := fun now key => ⟨Option.isSome_iff_exists, rfl⟩
  frame := by
    rintro before call rfl key other hkey hne now
    rw [List.forall_mem_append, List.forall_mem_singleton] at h
    rw [ofHistory_concat]
    exact get_fst_congr now (kept?_step_of_ne _ h.2 hkey hne)
  entry_iff := fun key e => kept?_ofHistory_iff h
  expired := by
    intro now key e hkept he
    rw [get_of_expired hkept he]
    refine ⟨rfl, fun other => ?_, (oneEach_ofHistory h).size_forget hkept⟩
    split_ifs with hother
    · rw [hother, kept?_forget_self]
    · exact kept?_forget_of_ne _ hother
  size_eq := by
    rw [(oneEach_ofHistory h).size_eq]
    simp only [kept?_ofHistory_iff h]

/-- The entry of a call that is not in time is missing behind this call. -/
theorem not_isDeadlineMap_of_not_inTime (before : List (Call α)) {call : Call α}
    (hcall : ¬ call.InTime) : ¬ IsDeadlineMap (before ++ [call]) := by
  intro hmap
  obtain ⟨key, v, ttl, hset, -⟩ := not_inTime_iff.mp hcall
  have hstores : call.Stores key ⟨v, ttl.map (call.now + ·)⟩ := ⟨ttl, hset, rfl⟩
  have hkept := (hmap.entry_iff key _).mpr (remains_of_stores hstores)
  rw [ofHistory_eq_broken (List.mem_append_right _ (List.mem_singleton_self call)) hcall,
    kept?_broken] at hkept
  contradiction

/-- The cache is the map with deadlines all along a history exactly when every call is in time. Behind
one that is not, it answers nothing. -/
theorem isDeadlineMap_iff (history : List (Call α)) :
    ((∀ before after, history = before ++ after → IsDeadlineMap before) ↔
        ∀ call ∈ history, call.InTime) ∧
      ∀ call ∈ history, ¬ call.InTime →
        (∀ now key, ((ofHistory history).get now key).1 = none) ∧ (ofHistory history).size = 0 := by
  refine ⟨⟨fun hmap call hmem => ?_, ?_⟩, fun call hmem hcall => ?_⟩
  · by_contra hcall
    obtain ⟨before, after, rfl⟩ := List.append_of_mem hmem
    exact not_isDeadlineMap_of_not_inTime before hcall (hmap _ after (by simp))
  · rintro h before after rfl
    exact IsDeadlineMap.of_inTime fun call hmem => h call (List.mem_append_left _ hmem)
  · rw [ofHistory_eq_broken hmem hcall]
    exact ⟨fun _ _ => rfl, rfl⟩

/-- The value that was set for the longest time to live of a word is not there, and neither is the one
that was set before. -/
theorem not_isDeadlineMap_overlong :
    ¬ IsDeadlineMap
      [⟨0, .set "kept" 1 none⟩, ⟨0, .set "long" 2 (some ((2 ^ 64 - 1) * second))⟩] := by
  refine not_isDeadlineMap_of_not_inTime [⟨0, .set "kept" 1 none⟩] fun h => ?_
  exact absurd (h "long" 2 ((2 ^ 64 - 1) * second) rfl) (by decide)

example :
    (ofHistory [⟨3, .set "kept" 1 none⟩, ⟨3, .set "gone" 2 (some 4)⟩, ⟨7, .has "kept"⟩]).size = 2 ∧
      (ofHistory [⟨3, .set "kept" 1 none⟩, ⟨3, .set "gone" 2 (some 4)⟩, ⟨7, .has "gone"⟩]).size =
        1 := by decide

end Cache

end Placeholder
