import Mathlib
import Placeholder.Proofs.DottedPath
import Placeholder.Proofs.EntryKeys
import Placeholder.Proofs.PlantedValues

/-!
# Two ways along a path through plain data

Plain data holds no objects of the host program. A path through it can be walked segment by segment,
or be joined by dots and looked up. The two ways agree on all plain data exactly when every segment
is a key: it has no dot, selects no end and not everything, and is the decimal text of its position
if it is a numeral. For any other path there are nested objects that tell the two ways apart.
-/

namespace Placeholder

namespace Value

inductive Plain : Value → Prop
  | null : Plain null
  | bool (b : Bool) : Plain (bool b)
  | int (n : Int64) : Plain (int n)
  | float (x : Float) : Plain (float x)
  | string (s : String) : Plain (string s)
  | dateTime (t : Calendar.DateTime) : Plain (dateTime t)
  | array {items : List Value} (h : ∀ v ∈ items, Plain v) : Plain (array items)
  | object {entries : Entries Value} (h : ∀ e ∈ entries, Plain e.2) : Plain (object entries)

/-- A segment that the walk and the look-up understand alike. -/
structure IsKey (segment : String) : Prop where
  undotted : '.' ∉ segment.toList
  ordinary : segment ≠ "*" ∧ segment ≠ "first" ∧ segment ≠ "last"
  canonical : Number.isNumeral segment.toList = true →
    Text.intText (position segment).toInt = segment

/-- A segment that the walk through plain data looks up as it is. -/
structure IsDirect (segment : String) : Prop where
  ordinary : segment ≠ "*" ∧ segment ≠ "first" ∧ segment ≠ "last"
  canonical : Number.isNumeral segment.toList = true →
    Text.intText (position segment).toInt = segment

theorem isKey_iff (segment : String) :
    IsKey segment ↔ '.' ∉ segment.toList ∧ IsDirect segment :=
  ⟨fun h => ⟨h.undotted, h.ordinary, h.canonical⟩, fun h => ⟨h.1, h.2.ordinary, h.2.canonical⟩⟩

/-! ### Over plain data -/

theorem lookupPath_cons (v : Value) (segment : String) (rest : List String) :
    v.lookupPath (segment :: rest) = (v.lookup segment).lookupPath rest := rfl

theorem lookupPath_of_lookup_null {v : Value} (h : ∀ segment, v.lookup segment = null)
    {path : List String} (hne : path ≠ []) : v.lookupPath path = null := by
  obtain ⟨segment, rest, rfl⟩ := List.exists_cons_of_ne_nil hne
  rw [lookupPath_cons, h]
  clear hne
  induction rest with
  | nil => rfl
  | cons next rest ih => exact ih

theorem lookupPath_null (path : List String) : null.lookupPath path = null := by
  by_cases hne : path = []
  · rw [hne]
    rfl
  · exact lookupPath_of_lookup_null (fun _ => rfl) hne

theorem Plain.ofOption {v? : Option Value} (h : ∀ v ∈ v?, v.Plain) : (ofOption v?).Plain := by
  cases v? with
  | none => exact .null
  | some v => exact h v rfl

theorem Plain.lookup {v : Value} (h : v.Plain) (segment : String) : (v.lookup segment).Plain := by
  cases h with
  | object hentries =>
    exact Plain.ofOption fun v hv => hentries _ (Entries.mem_of_get? hv)
  | array hitems =>
    refine Plain.ofOption fun v hv => ?_
    obtain ⟨i, -, hi⟩ := Option.bind_eq_some_iff.mp hv
    exact hitems v (List.mem_of_getElem? hi)
  | _ => exact .null

/-- The item at a position is the one that the text of the position looks up. -/
theorem atPosition_eq_lookup {v : Value} (h : v.Plain) (index : Int64) :
    v.atPosition index = v.lookup (Text.intText index.toInt) := by
  cases h with
  | array hitems =>
    by_cases hneg : index.toInt < 0
    · have hindex : index < 0 := Int64.lt_iff_toInt_lt.mpr hneg
      rw [atPosition, if_pos hindex, Value.lookup, Text.readNat?_intText_of_neg hneg]
      rfl
    · have hindex : ¬ index < 0 := fun hlt => hneg (Int64.lt_iff_toInt_lt.mp hlt)
      have hbound : index.toInt < UInt64.size := by
        have hle := index.toInt_le
        have hmax := Int64.toInt_maxValue
        simp only [UInt64.size]
        omega
      rw [atPosition, if_neg hindex, Value.lookup,
        Text.readNat?_intText (not_lt.mp hneg) hbound]
      rfl
  | object hentries => rfl
  | _ => rfl

theorem collectionStep_eq_lookup {v : Value} (h : v.Plain) {segment : String}
    (hsegment : IsDirect segment) : v.collectionStep segment = v.lookup segment := by
  obtain ⟨-, hfirst, hlast⟩ := hsegment.ordinary
  rw [collectionStep, if_neg hfirst, if_neg hlast]
  by_cases hnumeral : Number.isNumeral segment.toList = true
  · rw [if_pos hnumeral, atPosition_eq_lookup h, hsegment.canonical hnumeral]
  · rw [if_neg hnumeral]

/-- Along such segments the walk through plain data is the look-up. -/
theorem collectionWalk_eq_lookupPath {v : Value} (h : v.Plain) {path : List String}
    (hpath : ∀ segment ∈ path, IsDirect segment) : v.collectionWalk path = v.lookupPath path := by
  induction path generalizing v with
  | nil => exact collectionWalk_nil v
  | cons segment rest ih =>
    by_cases hnull : v = null
    · rw [hnull, collectionWalk_null, lookupPath_null]
    · have hsegment := hpath segment List.mem_cons_self
      rw [collectionWalk_cons hnull, if_neg hsegment.ordinary.1,
        collectionStep_eq_lookup h hsegment, lookupPath_cons]
      exact ih (h.lookup segment) fun s hs => hpath s (List.mem_cons_of_mem segment hs)

theorem collectionWalk_eq_lookupDotted {v : Value} (h : v.Plain) {path : List String}
    (hne : path ≠ []) (hpath : ∀ segment ∈ path, IsKey segment) :
    v.collectionWalk path = v.lookupDotted (Text.join "." path) := by
  rw [lookupDotted, Text.splitString_join hne fun s hs => (hpath s hs).undotted]
  exact collectionWalk_eq_lookupPath h fun s hs => ((isKey_iff s).mp (hpath s hs)).2

/-! ### Nested objects that tell the two ways apart -/

theorem plain_plantedAt {leaf : Value} (h : leaf.Plain) (keys : List String) :
    (plantedAt leaf keys).Plain := by
  induction keys with
  | nil => exact h
  | cons key rest ih =>
    refine .object fun e he => ?_
    rw [List.mem_singleton.mp he]
    exact ih

/-- A look-up in nested objects around a leaf with nothing below it that does not lead to the leaf
leads nowhere or to an object. -/
theorem lookupPath_plantedAt_cases {leaf : Value} (hleaf : ∀ segment, leaf.lookup segment = null)
    (keys path : List String) :
    path = keys ∨ (plantedAt leaf keys).lookupPath path = null ∨
      ∃ entries, (plantedAt leaf keys).lookupPath path = object entries := by
  induction keys generalizing path with
  | nil =>
    by_cases hpath : path = []
    · exact Or.inl hpath
    · exact Or.inr (Or.inl (lookupPath_of_lookup_null hleaf hpath))
  | cons key rest ih =>
    cases path with
    | nil => exact Or.inr (Or.inr ⟨_, rfl⟩)
    | cons segment others =>
      rw [plantedAt, lookupPath_cons, Value.lookup, Entries.get?_cons]
      by_cases hkey : segment = key
      · rw [if_pos hkey, hkey, List.cons.injEq, and_iff_right rfl]
        exact ih others
      · rw [if_neg hkey]
        exact Or.inr (Or.inl (lookupPath_null others))

theorem lookupPath_plantedAt_bool (b : Bool) (keys path : List String) :
    path = keys ∨ (plantedAt (bool b) keys).lookupPath path = null ∨
      ∃ entries, (plantedAt (bool b) keys).lookupPath path = object entries :=
  lookupPath_plantedAt_cases (fun _ => rfl) keys path

theorem eq_of_lookupPath_eq_bool {b found : Bool} {keys path : List String}
    (h : (plantedAt (bool b) keys).lookupPath path = bool found) : path = keys := by
  rcases lookupPath_plantedAt_bool b keys path with hkeys | hnull | ⟨entries, hobject⟩
  · exact hkeys
  · rw [hnull] at h
    cases h
  · rw [hobject] at h
    cases h

/-- The key of a single entry under which the walk finds it by this segment. -/
def walkKey (segment : String) : String :=
  if segment = "*" ∨ segment = "first" ∨ segment = "last" then ""
  else if Number.isNumeral segment.toList then Text.intText (position segment).toInt
  else segment

/-- Behind a star the walk looks the segments up as they are. -/
def walkKeys : List String → List String
  | [] => []
  | segment :: rest => walkKey segment :: if segment = "*" then rest else walkKeys rest

theorem length_walkKeys (path : List String) : (walkKeys path).length = path.length := by
  induction path with
  | nil => rfl
  | cons segment rest ih =>
    rw [walkKeys, List.length_cons, List.length_cons]
    split
    · rfl
    · rw [ih]

theorem isDirect_of_walkKey {segment : String} (h : walkKey segment = segment) :
    IsDirect segment := by
  unfold walkKey at h
  split_ifs at h with hselector hnumeral
  · subst h
    simp at hselector
  · exact ⟨by simpa only [not_or] using hselector, fun _ => h⟩
  · exact ⟨by simpa only [not_or] using hselector, fun hn => absurd hn hnumeral⟩

theorem isDirect_of_walkKeys {path : List String} (h : walkKeys path = path) :
    ∀ segment ∈ path, IsDirect segment := by
  induction path with
  | nil => exact List.forall_mem_nil _
  | cons segment rest ih =>
    rw [walkKeys, List.cons.injEq] at h
    have hdirect := isDirect_of_walkKey h.1
    rw [if_neg hdirect.ordinary.1] at h
    exact List.forall_mem_cons.mpr ⟨hdirect, ih h.2⟩

theorem collectionStep_walkKey {segment : String} (hstar : segment ≠ "*") (v : Value) :
    (object [(walkKey segment, v)]).collectionStep segment = v := by
  have hfound : ∀ key, ofOption (Entries.get? [(key, v)] key) = v := fun key => by
    rw [Entries.get?_cons, if_pos rfl]
    rfl
  unfold collectionStep
  split_ifs with hfirst hlast hnumeral
  · rfl
  · rfl
  · rw [walkKey, if_neg (by simp [hstar, hfirst, hlast]), if_pos hnumeral, atPosition, hfound]
  · rw [walkKey, if_neg (by simp [hstar, hfirst, hlast]), if_neg hnumeral, lookup, hfound]

/-- The walk leads to the leaf; behind a star it collects the leaf. -/
theorem collectionWalk_plantedAt {leaf : Value} (hleaf : leaf.isNull = false)
    (path : List String) :
    (plantedAt leaf (walkKeys path)).collectionWalk path =
      if "*" ∈ path then array [leaf] else leaf := by
  induction path with
  | nil => exact collectionWalk_nil leaf
  | cons segment rest ih =>
    rw [walkKeys, plantedAt, collectionWalk_cons Value.noConfusion]
    by_cases hstar : segment = "*"
    · rw [if_pos hstar, if_pos hstar, if_pos (hstar ▸ List.mem_cons_self)]
      simp [eachElement, items?, Entries.values, lookupPath_plantedAt, hleaf]
    · have hmem : "*" ∈ segment :: rest ↔ "*" ∈ rest := by
        rw [List.mem_cons, or_iff_right (Ne.symm hstar)]
      rw [if_neg hstar, if_neg hstar, collectionStep_walkKey hstar, ih]
      simp only [hmem]

/-- A look-up that finds in the objects made for a walk what the walk finds goes along their keys. -/
theorem eq_walkKeys_of_lookupPath_eq {path segments : List String}
    (h : (plantedAt (bool true) (walkKeys path)).lookupPath segments =
      (plantedAt (bool true) (walkKeys path)).collectionWalk path) : segments = walkKeys path := by
  rw [collectionWalk_plantedAt rfl] at h
  rcases lookupPath_plantedAt_bool true (walkKeys path) segments with
    hkeys | hnull | ⟨entries, hobject⟩
  · exact hkeys
  · rw [hnull] at h
    split_ifs at h
  · rw [hobject] at h
    split_ifs at h

/-- Where the look-up finds what the walk along the same path finds in the objects made for the
walk, all segments are keys. -/
theorem isKey_of_lookupDotted_eq {path : List String} (hne : path ≠ [])
    (h : (plantedAt (bool true) (walkKeys path)).lookupDotted (Text.join "." path) =
      (plantedAt (bool true) (walkKeys path)).collectionWalk path) :
    ∀ segment ∈ path, IsKey segment := by
  have hkeys := eq_walkKeys_of_lookupPath_eq h
  have hlength := length_walkKeys path
  rw [← hkeys] at hlength
  have hdots := Text.not_mem_of_length_splitString_join hne hlength
  rw [Text.splitString_join hne hdots] at hkeys
  exact fun segment hsegment => (isKey_iff segment).mpr
    ⟨hdots segment hsegment, isDirect_of_walkKeys hkeys.symm segment hsegment⟩

end Value

end Placeholder
