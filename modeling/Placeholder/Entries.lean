/-!
# Keyed entries in insertion order

A keyed container is the list of its entries. `insert` keeps the place of a key that is there
already, and `erase` closes the gap, so the order is that of first insertion.
-/

namespace Placeholder

abbrev Entries (α : Type) := List (String × α)

namespace Entries

variable {α β : Type}

def get? (entries : Entries α) (key : String) : Option α :=
  List.lookup key entries

def contains (entries : Entries α) (key : String) : Bool :=
  (entries.get? key).isSome

def keys (entries : Entries α) : List String :=
  entries.map Prod.fst

def values (entries : Entries α) : List α :=
  entries.map Prod.snd

def insert (key : String) (value : α) : Entries α → Entries α
  | [] => [(key, value)]
  | (k, v) :: rest =>
    if k = key then (k, value) :: rest else (k, v) :: insert key value rest

def insertAll (entries : Entries α) (more : List (String × α)) : Entries α :=
  more.foldl (fun es (k, v) => insert k v es) entries

/-- The entries of a list in which a repeated key keeps its place and takes the last value. -/
def ofList (pairs : List (String × α)) : Entries α :=
  insertAll [] pairs

def erase (key : String) (entries : Entries α) : Entries α :=
  entries.filter fun e => e.1 != key

@[simp]
theorem get?_nil (key : String) : get? ([] : Entries α) key = none := rfl

theorem get?_cons (k key : String) (v : α) (rest : Entries α) :
    get? ((k, v) :: rest) key = if key = k then some v else get? rest key := by
  unfold get?
  by_cases h : key = k
  · subst h
    simp
  · have hk : (key == k) = false := beq_eq_false_iff_ne.mpr h
    simp [List.lookup_cons, hk, h]

theorem get?_insert_self (key : String) (value : α) (entries : Entries α) :
    get? (insert key value entries) key = some value := by
  induction entries with
  | nil => simp [insert, get?_cons]
  | cons e rest ih =>
    obtain ⟨k, v⟩ := e
    by_cases h : k = key
    · simp [insert, h, get?_cons]
    · simp [insert, h, get?_cons, ih, Ne.symm h]

theorem get?_insert_of_ne {key other : String} (h : other ≠ key) (value : α)
    (entries : Entries α) : get? (insert key value entries) other = get? entries other := by
  induction entries with
  | nil => simp [insert, get?_cons, h]
  | cons e rest ih =>
    obtain ⟨k, v⟩ := e
    by_cases hk : k = key
    · simp [insert, hk, get?_cons, h]
    · simp [insert, hk, get?_cons, ih]

theorem get?_erase_self (key : String) (entries : Entries α) :
    get? (erase key entries) key = none := by
  induction entries with
  | nil => rfl
  | cons e rest ih =>
    obtain ⟨k, v⟩ := e
    unfold erase at ih ⊢
    by_cases h : k = key
    · simpa [h] using ih
    · simp [h, get?_cons, Ne.symm h, ih]

theorem get?_erase_of_ne {key other : String} (h : other ≠ key) (entries : Entries α) :
    get? (erase key entries) other = get? entries other := by
  induction entries with
  | nil => rfl
  | cons e rest ih =>
    obtain ⟨k, v⟩ := e
    unfold erase at ih ⊢
    by_cases hk : k = key
    · subst hk
      simpa [get?_cons, h] using ih
    · simp [hk, get?_cons, ih]

end Entries

end Placeholder
