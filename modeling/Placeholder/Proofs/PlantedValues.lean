import Mathlib
import Placeholder.Proofs.Disclosure
import Placeholder.Proofs.EntryKeys

/-!
# Planted values

A value is planted under a hidden name in such a form that a walk leads to a leaf of choice. Two
leaves give two models that agree off the hidden names and that a walk from something hidden tells
apart, be it by the value at its end or by the text of the whole model.
-/

namespace Placeholder

namespace Value

def plantedAt (leaf : Value) : List String → Value
  | [] => leaf
  | name :: rest => object [(name, plantedAt leaf rest)]

theorem lookup_singleton (name : String) (v : Value) : (object [(name, v)]).lookup name = v := by
  rw [lookup, Entries.get?_cons, if_pos rfl]
  rfl

theorem lookupPath_plantedAt (leaf : Value) (path : List String) :
    (plantedAt leaf path).lookupPath path = leaf := by
  induction path with
  | nil => rfl
  | cons name rest ih =>
    rw [plantedAt, lookupPath, List.foldl_cons, lookup_singleton]
    exact ih

def planted (leaf : Value) : List String → Value
  | [] => leaf
  | name :: rest =>
    if name = "*" then array [plantedAt leaf rest]
    else if name = "first" ∨ name = "last" then array [planted leaf rest]
    else if Number.isNumeral name.toList then
      object [(Text.intText (position name).toInt, planted leaf rest)]
    else object [(name, planted leaf rest)]

theorem planted_ne_null {leaf : Value} (hleaf : leaf.isNull = false) (path : List String) :
    planted leaf path ≠ null := by
  intro hnull
  cases path with
  | nil =>
    rw [planted] at hnull
    rw [hnull] at hleaf
    cases hleaf
  | cons name rest =>
    rw [planted] at hnull
    split_ifs at hnull

/-- A walk leads to the leaf planted for it; behind a star it collects the leaf. -/
theorem collectionWalk_planted {leaf : Value} (hleaf : leaf.isNull = false) (path : List String) :
    (planted leaf path).collectionWalk path = if "*" ∈ path then array [leaf] else leaf := by
  induction path with
  | nil => rw [planted, collectionWalk_nil, if_neg List.not_mem_nil]
  | cons name rest ih =>
    rw [collectionWalk_cons (planted_ne_null hleaf _)]
    by_cases hstar : name = "*"
    · have hitems : (planted leaf (name :: rest)).items? = some [plantedAt leaf rest] := by
        rw [planted, if_pos hstar]
        rfl
      rw [if_pos hstar, if_pos (by rw [hstar]; exact List.mem_cons_self), eachElement, hitems]
      simp [lookupPath_plantedAt, hleaf]
    · have hstep : (planted leaf (name :: rest)).collectionStep name = planted leaf rest := by
        rw [planted, if_neg hstar, collectionStep]
        by_cases hfirst : name = "first"
        · rw [if_pos (Or.inl hfirst), if_pos hfirst]
          rfl
        · by_cases hlast : name = "last"
          · rw [if_pos (Or.inr hlast), if_neg hfirst, if_pos hlast]
            rfl
          · have hends : ¬ (name = "first" ∨ name = "last") := not_or.mpr ⟨hfirst, hlast⟩
            rw [if_neg hends, if_neg hfirst, if_neg hlast]
            by_cases hnumeral : Number.isNumeral name.toList = true
            · rw [if_pos hnumeral, if_pos hnumeral, atPosition, Entries.get?_cons, if_pos rfl]
              rfl
            · rw [if_neg hnumeral, if_neg hnumeral, lookup, Entries.get?_cons, if_pos rfl]
              rfl
      have hmem : "*" ∈ name :: rest ↔ "*" ∈ rest := by
        rw [List.mem_cons, or_iff_right (Ne.symm hstar)]
      rw [if_neg hstar, hstep, ih]
      simp only [hmem]

end Value

namespace Json

theorem writeMembers_cons (name : String) (j : Json) {members : List (String × Json)}
    (h : members ≠ []) :
    writeMembers ((name, j) :: members) =
      writeString name ++ ':' :: j.write ++ ',' :: writeMembers members := by
  obtain ⟨member, rest, rfl⟩ := List.exists_cons_of_ne_nil h
  rw [writeMembers]

theorem exists_length_writeMembers (front : List (String × Json)) (name : String)
    (back : List (String × Json)) :
    ∃ n, ∀ j, (writeMembers (front ++ (name, j) :: back)).length = n + j.write.length := by
  induction front with
  | nil =>
    by_cases hback : back = []
    · subst hback
      refine ⟨(writeString name).length + 1, fun j => ?_⟩
      rw [List.nil_append, writeMembers, List.length_append, List.length_cons]
      omega
    · refine ⟨(writeString name).length + 2 + (writeMembers back).length, fun j => ?_⟩
      rw [List.nil_append, writeMembers_cons name j hback]
      simp only [List.length_append, List.length_cons]
      omega
  | cons member front ih =>
    obtain ⟨other, i⟩ := member
    obtain ⟨n, hn⟩ := ih
    refine ⟨(writeString other).length + i.write.length + 2 + n, fun j => ?_⟩
    rw [List.cons_append, writeMembers_cons other i (by simp)]
    simp only [List.length_append, List.length_cons, hn]
    omega

end Json

namespace Model

def plant (m : Model) (name : String) (v : Value) : Model :=
  { m with attributes := m.attributes.insert name v }

theorem find?_plant (m : Model) (name : String) (v : Value) :
    (m.plant name v).toHost.find? name = some v := by
  rw [find?_toHost, plant, Entries.get?_insert_self]
  rfl

theorem find?_plant_of_ne (m : Model) {name other : String} (h : other ≠ name) (v : Value) :
    (m.plant name v).toHost.find? other = m.toHost.find? other := by
  rw [find?_toHost, find?_toHost, plant, Entries.get?_insert_of_ne h]

theorem answerAlike_plant {p : Policy} {name : String} (hname : p.isDenied name = true) (m : Model)
    (v : Value) : m.AnswerAlike (m.plant name v) p where
  className := rfl
  find := fun other hother => by
    have hne : other ≠ name := by
      rintro rfl
      rw [hname] at hother
      contradiction
    rw [find?_plant_of_ne m hne]

theorem agreeOff_plant {p : Policy} {name : String} (hname : p.isDenied name = true) (m : Model)
    (v w : Value) : (m.plant name v).AgreeOff (m.plant name w) p where
  className := rfl
  attributes := p.agreeOff_insert hname v w m.attributes
  relations := p.agreeOff_refl m.relations

/-- The members of a model are the planted value between others that do not depend on it. -/
theorem exists_toJson_plant (m : Model) (name : String) :
    ∃ front back, ∀ v : Value, (Value.host (m.plant name v).toHost).toJson =
      .object (front ++ (name, v.toJson) :: back) := by
  let names := (m.plant name .null).toHost.fieldNames
  have hnames : ∀ v, (m.plant name v).toHost.fieldNames = names := fun v =>
    congrArg (· ++ m.relations.keys) (Entries.keys_insert_congr name v .null m.attributes)
  have hlisted : name ∈ names := by
    refine List.mem_append_left _ (Entries.contains_iff.mp ?_)
    rw [Entries.contains, plant, Entries.get?_insert_self]
    rfl
  obtain ⟨keys, hnodup, hmem, htabulated⟩ := Entries.exists_ofList_tabulated Json names
  obtain ⟨front, back, rfl⟩ := List.append_of_mem ((hmem name).mpr hlisted)
  have halone : name ∉ front ++ back := (List.nodup_cons.mp (List.nodup_middle.mp hnodup)).1
  obtain ⟨hfront, hback⟩ := not_or.mp (List.mem_append.not.mp halone)
  let other := fun k => (k, (Value.ofOption (m.toHost.find? k)).toJson)
  have hothers : ∀ (v : Value) (ks : List String), name ∉ ks →
      (ks.map fun k => (k, (Value.ofOption ((m.plant name v).toHost.find? k)).toJson)) =
        ks.map other := by
    intro v ks hks
    refine List.map_congr_left fun k hk => ?_
    have hne : k ≠ name := fun heq => hks (heq ▸ hk)
    rw [find?_plant_of_ne m hne]
  refine ⟨front.map other, back.map other, fun v => ?_⟩
  rw [Value.toJson_host, hnames, htabulated, List.map_append, List.map_cons, hothers v front hfront,
    hothers v back hback, find?_plant]
  rfl

theorem exists_length_encode_plant (m : Model) (name : String) :
    ∃ n, ∀ v : Value, (Value.host (m.plant name v).toHost).encode.toList.length =
      n + v.toJson.write.length := by
  obtain ⟨front, back, hjson⟩ := m.exists_toJson_plant name
  obtain ⟨n, hn⟩ := Json.exists_length_writeMembers front name back
  refine ⟨n + 2, fun v => ?_⟩
  rw [Value.encode, hjson, Json.text, String.toList_ofList, Json.write, List.length_append,
    List.length_cons, hn]
  simp only [List.length_singleton]
  omega

/-- Where something is hidden, two models that agree off the hidden names and answer like a given
one have texts of different lengths. -/
theorem exists_encode_lt {p : Policy} (hp : p.denied ≠ []) (m : Model) :
    ∃ m₁ m₂ : Model, m.AnswerAlike m₁ p ∧ m.AnswerAlike m₂ p ∧ m₁.AgreeOff m₂ p ∧
      (Value.host m₁.toHost).encode.toList.length < (Value.host m₂.toHost).encode.toList.length := by
  obtain ⟨name, rest, hdenied⟩ := List.exists_cons_of_ne_nil hp
  have hname : p.isDenied name = true := by simp [Policy.isDenied, hdenied]
  refine ⟨m.plant name (.bool true), m.plant name (.bool false), answerAlike_plant hname m _,
    answerAlike_plant hname m _, agreeOff_plant hname m _ _, ?_⟩
  obtain ⟨n, hn⟩ := m.exists_length_encode_plant name
  rw [hn, hn]
  exact Nat.add_lt_add_left (by decide) n

theorem collectionWalk_plant (m : Model) {name : String} (hname : Token.isSelector name = false)
    (v : Value) (rest : List String) :
    (Value.host (m.plant name v).toHost).collectionWalk (name :: rest) = v.collectionWalk rest := by
  rw [Value.collectionWalk_lookup _ hname, find?_plant]
  rfl

/-- Where a walk starts at something hidden, two models that agree off the hidden names and answer
like a given one show different values at its end. -/
theorem exists_walks_ne {p : Policy} {path : List String} (h : p.UncoversPath path) (m : Model) :
    ∃ m₁ m₂ : Model, m.AnswerAlike m₁ p ∧ m.AnswerAlike m₂ p ∧ m₁.AgreeOff m₂ p ∧
      ((Value.host m₁.toHost).collectionWalk path).toJson ≠
        ((Value.host m₂.toHost).collectionWalk path).toJson := by
  cases path with
  | nil =>
    obtain ⟨m₁, m₂, hm₁, hm₂, hagree, hlt⟩ := exists_encode_lt h m
    refine ⟨m₁, m₂, hm₁, hm₂, hagree, fun heq => ?_⟩
    rw [Value.collectionWalk_nil, Value.collectionWalk_nil] at heq
    rw [Value.encode, Value.encode, heq] at hlt
    exact lt_irrefl _ hlt
  | cons name rest =>
    obtain ⟨hname, hselector⟩ := h
    refine ⟨m.plant name (Value.planted (.bool true) rest),
      m.plant name (Value.planted (.bool false) rest), answerAlike_plant hname m _,
      answerAlike_plant hname m _, agreeOff_plant hname m _ _, ?_⟩
    rw [collectionWalk_plant m hselector, collectionWalk_plant m hselector,
      Value.collectionWalk_planted rfl, Value.collectionWalk_planted rfl]
    split <;> simp [Value.toJson, Value.itemsToJson]

/-- Where a walk starts at a hidden name, it leads nowhere in one of two such models and somewhere in
the other. -/
theorem exists_walk_null {p : Policy} {name : String} {rest : List String}
    (h : p.UncoversPath (name :: rest)) (m : Model) :
    ∃ m₁ m₂ : Model, m.AnswerAlike m₁ p ∧ m.AnswerAlike m₂ p ∧ m₁.AgreeOff m₂ p ∧
      (Value.host m₁.toHost).collectionWalk (name :: rest) = .null ∧
        (Value.host m₂.toHost).collectionWalk (name :: rest) ≠ .null := by
  obtain ⟨hname, hselector⟩ := h
  refine ⟨m.plant name .null, m.plant name (Value.planted (.bool true) rest),
    answerAlike_plant hname m _, answerAlike_plant hname m _, agreeOff_plant hname m _ _, ?_, ?_⟩
  · rw [collectionWalk_plant m hselector, Value.collectionWalk_null]
  · rw [collectionWalk_plant m hselector, Value.collectionWalk_planted rfl]
    split <;> exact Value.noConfusion

end Model

end Placeholder
