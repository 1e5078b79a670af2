import Mathlib
import Placeholder.Entries

/-!
# Keys of entries

Which keys a container has after insertions and removals, and in which order. Only the last of
several insertions under a key counts, and insertions under other keys do not matter. Two containers
of one size are compared key by key from either side.
-/

namespace Placeholder.Entries

variable {α : Type}

/-! ### Keys -/

theorem get?_eq_none_iff {entries : Entries α} {key : String} :
    entries.get? key = none ↔ key ∉ entries.keys := by
  induction entries with
  | nil => simp [keys]
  | cons e rest ih =>
    obtain ⟨k, v⟩ := e
    by_cases h : key = k
    · simp [get?_cons, keys, h]
    · rw [get?_cons, if_neg h, ih]
      simp [keys, h]

theorem contains_iff {entries : Entries α} {key : String} :
    entries.contains key = true ↔ key ∈ entries.keys := by
  rw [contains, Option.isSome_iff_ne_none, ne_eq, get?_eq_none_iff, not_not]

theorem keys_insert_of_mem {key : String} (value : α) {entries : Entries α}
    (h : key ∈ entries.keys) : keys (insert key value entries) = entries.keys := by
  induction entries with
  | nil => cases h
  | cons e rest ih =>
    obtain ⟨k, v⟩ := e
    by_cases hk : k = key
    · simp [insert, hk, keys]
    · have hrest : key ∈ keys rest := by
        simpa [keys, Ne.symm hk] using h
      have hkeys := ih hrest
      simp only [insert, if_neg hk, keys, List.map_cons] at hkeys ⊢
      rw [hkeys]

theorem insert_of_not_mem {key : String} (value : α) {entries : Entries α}
    (h : key ∉ entries.keys) : insert key value entries = entries ++ [(key, value)] := by
  induction entries with
  | nil => rfl
  | cons e rest ih =>
    obtain ⟨k, v⟩ := e
    have hk : k ≠ key ∧ key ∉ keys rest := by
      simpa [keys, eq_comm] using h
    rw [insert, if_neg hk.1, ih hk.2, List.cons_append]

theorem keys_insert_of_not_mem {key : String} (value : α) {entries : Entries α}
    (h : key ∉ entries.keys) : keys (insert key value entries) = entries.keys ++ [key] := by
  rw [insert_of_not_mem value h, keys, List.map_append]
  rfl

theorem keys_insert_congr (key : String) (v w : α) (entries : Entries α) :
    keys (insert key v entries) = keys (insert key w entries) := by
  by_cases hkey : key ∈ entries.keys
  · rw [keys_insert_of_mem v hkey, keys_insert_of_mem w hkey]
  · rw [keys_insert_of_not_mem v hkey, keys_insert_of_not_mem w hkey]

theorem nodup_keys_insert (key : String) (value : α) {entries : Entries α}
    (h : entries.keys.Nodup) : (keys (insert key value entries)).Nodup := by
  by_cases hkey : key ∈ entries.keys
  · rwa [keys_insert_of_mem value hkey]
  · rw [keys_insert_of_not_mem value hkey, ← List.concat_eq_append]
    exact h.concat hkey

theorem eq_or_mem_of_mem_insert {key : String} {value : α} {entries : Entries α}
    {e : String × α} (h : e ∈ insert key value entries) : e.2 = value ∨ e ∈ entries := by
  induction entries with
  | nil =>
    rw [List.mem_singleton.mp h]
    exact Or.inl rfl
  | cons f rest ih =>
    obtain ⟨k, v⟩ := f
    rw [insert] at h
    split_ifs at h with hk
    · rcases List.mem_cons.mp h with rfl | hrest
      · exact Or.inl rfl
      · exact Or.inr (List.mem_cons_of_mem _ hrest)
    · rcases List.mem_cons.mp h with rfl | hrest
      · exact Or.inr List.mem_cons_self
      · exact (ih hrest).imp_right (List.mem_cons_of_mem _)

theorem keys_erase (key : String) (entries : Entries α) :
    keys (erase key entries) = entries.keys.filter (· != key) := by
  rw [keys, keys, erase, List.filter_map]
  rfl

theorem get?_filter (p : String → Bool) (entries : Entries α) (key : String) :
    get? (entries.filter fun e => p e.1) key = if p key then entries.get? key else none := by
  induction entries with
  | nil => simp
  | cons e rest ih =>
    obtain ⟨k, v⟩ := e
    by_cases hk : p k = true
    · have hfilter : ((k, v) :: rest).filter (fun e => p e.1) =
          (k, v) :: rest.filter fun e => p e.1 := List.filter_cons_of_pos hk
      rw [hfilter, get?_cons, get?_cons, ih]
      by_cases hkey : key = k
      · rw [if_pos hkey, if_pos hkey, hkey, if_pos hk]
      · rw [if_neg hkey, if_neg hkey]
    · have hfilter : ((k, v) :: rest).filter (fun e => p e.1) = rest.filter fun e => p e.1 :=
        List.filter_cons_of_neg hk
      rw [hfilter, ih, get?_cons]
      by_cases hkey : key = k
      · rw [hkey, if_neg hk, if_neg hk]
      · rw [if_neg hkey]

theorem mem_of_get? {entries : Entries α} {key : String} {v : α}
    (h : entries.get? key = some v) : (key, v) ∈ entries := by
  induction entries with
  | nil => cases h
  | cons e rest ih =>
    obtain ⟨k, u⟩ := e
    rw [get?_cons] at h
    by_cases hk : key = k
    · rw [if_pos hk] at h
      cases h
      rw [hk]
      exact List.mem_cons_self
    · rw [if_neg hk] at h
      exact List.mem_cons_of_mem _ (ih h)

theorem get?_of_mem {entries : Entries α} (hnodup : entries.keys.Nodup) {key : String} {v : α}
    (h : (key, v) ∈ entries) : entries.get? key = some v := by
  induction entries with
  | nil => cases h
  | cons e rest ih =>
    obtain ⟨k, u⟩ := e
    obtain ⟨hk, hrest⟩ := List.nodup_cons.mp hnodup
    rw [get?_cons]
    rcases List.mem_cons.mp h with heq | hmem
    · cases heq
      rw [if_pos rfl]
    · have hne : key ≠ k := fun heq => hk (List.mem_map.mpr ⟨(key, v), hmem, heq⟩)
      rw [if_neg hne]
      exact ih hrest hmem

/-- Every entry has a partner: under its key, the other container has a value related to its own. -/
def Partnered (R : α → α → Prop) (es fs : Entries α) : Prop :=
  ∀ e ∈ es, ∃ v, fs.get? e.1 = some v ∧ R e.2 v

/-- Where keys are not repeated and both containers have the same size, partners on one side are
partners on the other: the keys that are found are all the keys there are. -/
theorem Partnered.symm {R : α → α → Prop} {es fs : Entries α} (h : Partnered R es fs)
    (hnodup : es.keys.Nodup) (hsize : es.length = fs.length) :
    Partnered (fun v w => R w v) fs es := by
  have hsubset : es.keys ⊆ fs.keys := by
    intro key hkey
    obtain ⟨e, he, rfl⟩ := List.mem_map.mp hkey
    obtain ⟨v, hv, -⟩ := h e he
    exact List.mem_map.mpr ⟨(e.1, v), mem_of_get? hv, rfl⟩
  have hperm : es.keys.Perm fs.keys := by
    refine (hnodup.subperm hsubset).perm_of_length_le ?_
    rw [keys, keys, List.length_map, List.length_map, hsize]
  intro f hf
  have hkey : f.1 ∈ es.keys := hperm.mem_iff.mpr (List.mem_map.mpr ⟨f, hf, rfl⟩)
  obtain ⟨v, hv⟩ := Option.isSome_iff_exists.mp (contains_iff.mpr hkey)
  obtain ⟨w, hw, hR⟩ := h _ (mem_of_get? hv)
  have hsame : some f.2 = some w := (get?_of_mem (hperm.nodup_iff.mp hnodup) hf).symm.trans hw
  cases hsame
  exact ⟨v, hv, hR⟩

/-! ### Many insertions -/

theorem insertAll_cons (entries : Entries α) (key : String) (value : α)
    (more : List (String × α)) :
    insertAll entries ((key, value) :: more) = insertAll (insert key value entries) more := rfl

theorem nodup_keys_ofList (pairs : List (String × α)) : (keys (ofList pairs)).Nodup := by
  suffices h : ∀ es : Entries α, es.keys.Nodup → (keys (insertAll es pairs)).Nodup from
    h [] List.nodup_nil
  induction pairs with
  | nil => exact fun es hes => hes
  | cons e more ih =>
    intro es hes
    exact ih _ (nodup_keys_insert e.1 e.2 hes)

/-- Entries with different keys are a container as they stand. -/
theorem ofList_eq_self {entries : Entries α} (h : entries.keys.Nodup) : ofList entries = entries := by
  suffices hall : ∀ front : Entries α, (keys (front ++ entries)).Nodup →
      insertAll front entries = front ++ entries from hall [] h
  intro front hnodup
  clear h
  induction entries generalizing front with
  | nil => exact (List.append_nil front).symm
  | cons e rest ih =>
    obtain ⟨k, v⟩ := e
    have hnew : k ∉ keys front := by
      rw [keys, List.map_append] at hnodup
      exact fun hk => List.disjoint_of_nodup_append hnodup hk List.mem_cons_self
    have hshift : front ++ (k, v) :: rest = (front ++ [(k, v)]) ++ rest := by
      rw [List.append_assoc, List.singleton_append]
    rw [hshift] at hnodup ⊢
    rw [insertAll_cons, insert_of_not_mem v hnew, ih _ hnodup]

theorem insert_tabulated {key : String} {keys : List String} (f : String → α) (h : key ∈ keys) :
    insert key (f key) (keys.map fun k => (k, f k)) = keys.map fun k => (k, f k) := by
  induction keys with
  | nil => cases h
  | cons k rest ih =>
    by_cases hk : k = key
    · rw [List.map_cons, insert, if_pos hk, hk]
    · have hrest : key ∈ rest := (List.mem_cons.mp h).resolve_left (Ne.symm hk)
      rw [List.map_cons, insert, if_neg hk, ih hrest]

section

variable (α)

theorem exists_insertAll_tabulated {old : List String} (hold : old.Nodup) (names : List String) :
    ∃ keys : List String, keys.Nodup ∧ (∀ k, k ∈ keys ↔ k ∈ old ∨ k ∈ names) ∧
      ∀ f : String → α, insertAll (old.map fun k => (k, f k)) (names.map fun k => (k, f k)) =
        keys.map fun k => (k, f k) := by
  induction names generalizing old with
  | nil => exact ⟨old, hold, fun k => by simp, fun f => rfl⟩
  | cons name names ih =>
    by_cases hname : name ∈ old
    · obtain ⟨keys, hnodup, hmem, hinsert⟩ := ih hold
      refine ⟨keys, hnodup, fun k => ?_, fun f => ?_⟩
      · have hsame : k = name → k ∈ old := fun h => h ▸ hname
        rw [hmem, List.mem_cons]
        tauto
      · rw [List.map_cons, insertAll_cons, insert_tabulated f hname, hinsert]
    · have hnext : (old ++ [name]).Nodup := by
        rw [← List.concat_eq_append]
        exact hold.concat hname
      obtain ⟨keys, hnodup, hmem, hinsert⟩ := ih hnext
      refine ⟨keys, hnodup, fun k => ?_, fun f => ?_⟩
      · rw [hmem, List.mem_append, List.mem_singleton, List.mem_cons, or_assoc]
      · have hnew : name ∉ Entries.keys (old.map fun k => (k, f k)) := by
          simpa [Entries.keys] using hname
        rw [List.map_cons, insertAll_cons, insert_of_not_mem (f name) hnew, ← hinsert,
          List.map_append]
        rfl

/-- A container of values that are computed from their keys has the keys in an order that does not
depend on the values. -/
theorem exists_ofList_tabulated (names : List String) :
    ∃ keys : List String, keys.Nodup ∧ (∀ k, k ∈ keys ↔ k ∈ names) ∧
      ∀ f : String → α, ofList (names.map fun k => (k, f k)) = keys.map fun k => (k, f k) := by
  obtain ⟨keys, hnodup, hmem, hinsert⟩ := exists_insertAll_tabulated α List.nodup_nil names
  refine ⟨keys, hnodup, fun k => ?_, hinsert⟩
  rw [hmem, or_iff_right List.not_mem_nil]

end

/-- What is true of all values that are inserted is true of all values in the container. -/
theorem forall_values_ofList {P : α → Prop} {pairs : List (String × α)}
    (h : ∀ e ∈ pairs, P e.2) : ∀ e ∈ ofList pairs, P e.2 := by
  suffices hall : ∀ es : Entries α, (∀ e ∈ es, P e.2) → ∀ e ∈ insertAll es pairs, P e.2 from
    hall [] (List.forall_mem_nil _)
  induction pairs with
  | nil => exact fun es hes => hes
  | cons f more ih =>
    intro es hes
    obtain ⟨hf, hmore⟩ := List.forall_mem_cons.mp h
    refine ih hmore _ fun e he => ?_
    rcases eq_or_mem_of_mem_insert he with heq | hmem
    · rwa [heq]
    · exact hes e hmem

theorem get?_insertAll_of_not_mem {key : String} {more : List (String × α)}
    (h : key ∉ keys more) (entries : Entries α) :
    (entries.insertAll more).get? key = entries.get? key := by
  induction more generalizing entries with
  | nil => rfl
  | cons e more ih =>
    obtain ⟨k, v⟩ := e
    have hk : key ≠ k ∧ key ∉ keys more := by
      simpa [keys] using h
    rw [insertAll_cons, ih hk.2, get?_insert_of_ne hk.1]

/-- Under a key the last of the values that are inserted under it counts. -/
theorem get?_insertAll_eq_reverse (entries : Entries α) (more : List (String × α)) (key : String) :
    (entries.insertAll more).get? key = (get? more.reverse key).or (entries.get? key) := by
  induction more using List.reverseRecOn with
  | nil => rfl
  | append_singleton more e ih =>
    obtain ⟨k, v⟩ := e
    have hlast : entries.insertAll (more ++ [(k, v)]) = insert k v (entries.insertAll more) :=
      List.foldl_append
    rw [hlast, List.reverse_append, List.reverse_singleton, List.singleton_append, get?_cons]
    by_cases hkey : key = k
    · rw [if_pos hkey, hkey, get?_insert_self, Option.some_or]
    · rw [if_neg hkey, get?_insert_of_ne hkey, ih]

/-- Entries with different keys take the place of what the container has under them. -/
theorem get?_insertAll {more : Entries α} (hnodup : more.keys.Nodup) (entries : Entries α)
    (key : String) :
    (entries.insertAll more).get? key = (more.get? key).or (entries.get? key) := by
  induction more generalizing entries with
  | nil => rfl
  | cons e rest ih =>
    obtain ⟨k, v⟩ := e
    obtain ⟨hk, hrest⟩ := List.nodup_cons.mp hnodup
    rw [insertAll_cons, get?_cons]
    by_cases hkey : key = k
    · rw [if_pos hkey, hkey, get?_insertAll_of_not_mem hk, get?_insert_self, Option.some_or]
    · rw [if_neg hkey, ih hrest, get?_insert_of_ne hkey]

/-- Entries with different keys hold the same as the container that they are inserted into. -/
theorem get?_ofList {entries : Entries α} (hnodup : entries.keys.Nodup) (key : String) :
    (ofList entries).get? key = entries.get? key := by
  rw [ofList, get?_insertAll hnodup, get?_nil, Option.or_none]

/-- Leaving out insertions under other keys does not change what is under a key. -/
theorem get?_insertAll_filter {key : String} {p : String → Bool} (hkey : p key = true)
    (more : List (String × α)) {es fs : Entries α} (h : es.get? key = fs.get? key) :
    (es.insertAll (more.filter fun e => p e.1)).get? key = (fs.insertAll more).get? key := by
  induction more generalizing es fs with
  | nil => exact h
  | cons e more ih =>
    obtain ⟨k, v⟩ := e
    rw [insertAll_cons]
    by_cases hk : p k = true
    · have hfilter : ((k, v) :: more).filter (fun e => p e.1) =
          (k, v) :: more.filter fun e => p e.1 := List.filter_cons_of_pos hk
      rw [hfilter, insertAll_cons]
      apply ih
      by_cases hsame : key = k
      · rw [hsame, get?_insert_self, get?_insert_self]
      · rw [get?_insert_of_ne hsame, get?_insert_of_ne hsame, h]
    · have hfilter : ((k, v) :: more).filter (fun e => p e.1) = more.filter fun e => p e.1 :=
        List.filter_cons_of_neg hk
      rw [hfilter]
      apply ih
      have hne : key ≠ k := by
        rintro rfl
        exact hk hkey
      rw [get?_insert_of_ne hne, h]

end Placeholder.Entries
