import Mathlib
import Placeholder.Proofs.Coalescing

/-!
# Stars in collections

A star collects what the rest of the path leads to in the items before it. The rest is looked up in
every item instead of being walked there, so ends, positions and further stars are names behind a
star. So the star distributes the walk over the items exactly when nothing behind it selects among
items. Over plain data a position may stand there too, if it is written as its decimal text.
-/

namespace Placeholder

namespace Value

/-- What the path leads to in the items by the walk of collections, as far as it leads somewhere. -/
def walkEach (items : List Value) (path : List String) : Value :=
  array ((items.map fun item => item.collectionWalk path).filter fun v => !v.isNull)

/-- What the path leads to in the items when it is looked up, as far as it leads somewhere. -/
def lookupEach (items : List Value) (path : List String) : Value :=
  array ((items.map fun item => item.lookupPath path).filter fun v => !v.isNull)

theorem collectionWalk_append {front : List String} (hfront : "*" ∉ front) (v : Value)
    (rest : List String) :
    v.collectionWalk (front ++ rest) = (v.collectionWalk front).collectionWalk rest := by
  induction front generalizing v with
  | nil => rw [List.nil_append, collectionWalk_nil]
  | cons segment front ih =>
    obtain ⟨hstar, hfront⟩ := not_or.mp (mt List.mem_cons.mpr hfront)
    by_cases hnull : v = null
    · rw [hnull, collectionWalk_null, collectionWalk_null, collectionWalk_null]
    · rw [List.cons_append, collectionWalk_cons hnull, if_neg (Ne.symm hstar), ih hfront,
        collectionWalk_cons hnull, if_neg (Ne.symm hstar)]

/-- The walk along a path with a star looks the rest up in the items before the star. -/
theorem collectionWalk_star {v : Value} {front : List String} (hfront : "*" ∉ front)
    {items : List Value} (hitems : (v.collectionWalk front).items? = some items)
    (rest : List String) : v.collectionWalk (front ++ "*" :: rest) = lookupEach items rest := by
  have hnull : v.collectionWalk front ≠ null := by
    intro hnull
    rw [hnull] at hitems
    cases hitems
  rw [collectionWalk_append hfront, collectionWalk_cons hnull, if_pos rfl, eachElement, hitems]
  rfl

/-! ### Plain data along a walk -/

theorem Plain.items {v : Value} (h : v.Plain) {items : List Value}
    (hitems : v.items? = some items) : ∀ item ∈ items, item.Plain := by
  cases h with
  | array hall =>
    cases hitems
    exact hall
  | object hall =>
    cases hitems
    intro item hitem
    obtain ⟨e, he, rfl⟩ := List.mem_map.mp hitem
    exact hall e he
  | _ => cases hitems

theorem Plain.collectionStep {v : Value} (h : v.Plain) (segment : String) :
    (v.collectionStep segment).Plain := by
  have hitem : ∀ {choose : List Value → Option Value}, (∀ items, ∀ w ∈ choose items, w ∈ items) →
      (Value.ofOption (v.items?.bind choose)).Plain := fun hchoose => by
    refine Plain.ofOption fun w hw => ?_
    obtain ⟨items, hitems, hchosen⟩ := Option.bind_eq_some_iff.mp hw
    exact h.items hitems w (hchoose items w hchosen)
  unfold Value.collectionStep
  split_ifs
  · exact hitem fun _ _ => List.mem_of_head?
  · exact hitem fun _ _ => List.mem_of_getLast?
  · rw [atPosition_eq_lookup h]
    exact h.lookup _
  · exact h.lookup segment

theorem Plain.collectionWalk {v : Value} (h : v.Plain) {path : List String} (hpath : "*" ∉ path) :
    (v.collectionWalk path).Plain := by
  induction path generalizing v with
  | nil =>
    rw [collectionWalk_nil]
    exact h
  | cons segment rest ih =>
    obtain ⟨hstar, hrest⟩ := not_or.mp (mt List.mem_cons.mpr hpath)
    by_cases hnull : v = .null
    · rw [hnull, collectionWalk_null]
      exact Plain.null
    · rw [collectionWalk_cons hnull, if_neg (Ne.symm hstar)]
      exact ih (h.collectionStep segment) hrest

/-! ### Where the walk of the rest is its look-up -/

theorem eq_of_each_eq {item : Value} {path : List String}
    (h : lookupEach [item] path = walkEach [item] path) :
    item.collectionWalk path = item.lookupPath path := by
  have hfilter : ∀ {v w : Value},
      [v].filter (fun v => !v.isNull) = [w].filter (fun v => !v.isNull) → v = w := by
    intro v w heq
    cases v <;> cases w <;> simp_all [isNull]
  exact (hfilter (array.inj h)).symm

theorem walkEach_eq_lookupEach {items : List Value} {path : List String}
    (h : ∀ item ∈ items, item.collectionWalk path = item.lookupPath path) :
    lookupEach items path = walkEach items path := by
  rw [lookupEach, walkEach, List.map_congr_left h]

theorem collectionWalk_of_not_selector {path : List String}
    (h : ∀ segment ∈ path, Token.isSelector segment = false) (v : Value) :
    v.collectionWalk path = v.lookupPath path := by
  induction path generalizing v with
  | nil => exact collectionWalk_nil v
  | cons segment rest ih =>
    obtain ⟨hsegment, hrest⟩ := List.forall_mem_cons.mp h
    obtain ⟨hstep, hstar⟩ := collectionStep_of_not_selector hsegment v
    by_cases hnull : v = null
    · rw [hnull, collectionWalk_null, lookupPath_null]
    · rw [collectionWalk_cons hnull, if_neg hstar, hstep, ih hrest, lookupPath_cons]

/-- A model with an attribute of the name of a selector tells the walk from the look-up. -/
theorem exists_walk_ne_of_selector {path : List String}
    (h : ∃ segment ∈ path, Token.isSelector segment = true) :
    ∃ v : Value, v.collectionWalk path ≠ v.lookupPath path := by
  induction path with
  | nil =>
    obtain ⟨segment, hmem, -⟩ := h
    cases hmem
  | cons segment rest ih =>
    cases hselector : Token.isSelector segment with
    | true =>
      -- A model has neither items nor positions, but may have an attribute of any name.
      have hfind := (Model.mk 0 "" [] []).find?_plant segment (plantedAt (bool true) rest)
      refine ⟨host ((Model.mk 0 "" [] []).plant segment (plantedAt (bool true) rest)).toHost, ?_⟩
      have hlookup : ofOption (some (plantedAt (bool true) rest)) = plantedAt (bool true) rest :=
        rfl
      rw [collectionWalk_selector _ hselector, lookupPath_cons, lookup, hfind, hlookup,
        lookupPath_plantedAt]
      split <;> exact Value.noConfusion
    | false =>
      have hrest : ∃ segment ∈ rest, Token.isSelector segment = true := by
        obtain ⟨other, hmem, hother⟩ := h
        rcases List.mem_cons.mp hmem with rfl | hmem
        · rw [hselector] at hother
          cases hother
        · exact ⟨other, hmem, hother⟩
      obtain ⟨v, hv⟩ := ih hrest
      obtain ⟨hstep, hstar⟩ := collectionStep_of_not_selector hselector (object [(segment, v)])
      refine ⟨object [(segment, v)], ?_⟩
      rwa [collectionWalk_cons Value.noConfusion, if_neg hstar, hstep, lookupPath_cons,
        lookup_singleton]

theorem isDirect_of_collectionWalk_eq {path : List String}
    (h : ∀ v : Value, v.Plain → v.collectionWalk path = v.lookupPath path) :
    ∀ segment ∈ path, IsDirect segment := by
  have hplain := plain_plantedAt (.bool true) (walkKeys path)
  exact isDirect_of_walkKeys (eq_walkKeys_of_lookupPath_eq (h _ hplain).symm).symm

end Value

/-! ### Tokens with a star -/

namespace Pipeline

variable {t : Token} {front rest : List String}

/-- Over the data `v` a token with a star behind `front` has what the walk of `rest` leads to in
the items that `front` leads to. -/
def Distributes (pl : Pipeline) (t : Token) (front rest : List String) (v : Value) : Prop :=
  ∀ c : Context, c.expectedHead = none → c.source.raw = v →
    c.source.check (Text.join "." t.fieldPath) = .ok () →
      ∀ items, (v.collectionWalk front).items? = some items →
        pl.resolve t c = .ok (Value.walkEach items rest)

theorem resolve_star (k : Clock) (hkind : t.kind = .collection)
    (hpath : t.fieldPath = front ++ "*" :: rest) (hfront : "*" ∉ front) {c : Context}
    (hhead : c.expectedHead = none) (hcheck : c.source.check (Text.join "." t.fieldPath) = .ok ())
    {items : List Value} (hitems : (c.source.raw.collectionWalk front).items? = some items) :
    (ofList (Resolver.defaults k)).resolve t c = .ok (Value.lookupEach items rest) := by
  have hexpects : c.expects t = true := by rw [Context.expects, hhead]
  rw [resolve_defaults (by rw [hkind]; rfl), Resolver.resolve_collection hexpects hcheck, hpath,
    Value.collectionWalk_star hfront hitems]

theorem distributes_of_walk_eq (k : Clock) (hkind : t.kind = .collection)
    (hpath : t.fieldPath = front ++ "*" :: rest) (hfront : "*" ∉ front) {v : Value}
    (h : ∀ items, (v.collectionWalk front).items? = some items →
      ∀ item ∈ items, item.collectionWalk rest = item.lookupPath rest) :
    (ofList (Resolver.defaults k)).Distributes t front rest v := by
  intro c hhead hraw hcheck items hitems
  have hsource := hitems
  rw [← hraw] at hsource
  rw [resolve_star k hkind hpath hfront hhead hcheck hsource,
    Value.walkEach_eq_lookupEach (h items hitems)]

/-- Over a list with one item, planted where `front` leads to, the item is walked. -/
theorem walk_eq_of_distributes (k : Clock) (hkind : t.kind = .collection)
    (hpath : t.fieldPath = front ++ "*" :: rest) (hfront : "*" ∉ front) {item : Value}
    (h : (ofList (Resolver.defaults k)).Distributes t front rest
      (Value.plantedAt (.array [item]) (Value.walkKeys front))) :
    item.collectionWalk rest = item.lookupPath rest := by
  have hleaf : (Value.array [item]).isNull = false := rfl
  have hwalk := Value.collectionWalk_plantedAt hleaf front
  rw [if_neg hfront] at hwalk
  have hitems : ((Value.plantedAt (.array [item]) (Value.walkKeys front)).collectionWalk
      front).items? = some [item] := by
    rw [hwalk]
    rfl
  have heq := h (Context.ofData _) rfl rfl rfl [item] hitems
  rw [resolve_star k hkind hpath hfront (c := Context.ofData _) rfl rfl hitems] at heq
  exact Value.eq_of_each_eq (Except.ok.inj heq)

/-- A token with a star has what the rest of its path leads to in the items when it is looked up
there. It has what the walk of the rest leads to over all data exactly when nothing in the rest
selects, and over all plain data exactly when the walk looks every segment of the rest up as it
is. -/
theorem distributes_iff (k : Clock) (hkind : t.kind = .collection)
    (hpath : t.fieldPath = front ++ "*" :: rest) (hfront : "*" ∉ front) :
    (∀ c : Context, c.expectedHead = none →
        c.source.check (Text.join "." t.fieldPath) = .ok () →
          ∀ items, (c.source.raw.collectionWalk front).items? = some items →
            (ofList (Resolver.defaults k)).resolve t c = .ok (Value.lookupEach items rest)) ∧
      ((∀ v, (ofList (Resolver.defaults k)).Distributes t front rest v) ↔
        ∀ segment ∈ rest, Token.isSelector segment = false) ∧
      ((∀ v : Value, v.Plain → (ofList (Resolver.defaults k)).Distributes t front rest v) ↔
        ∀ segment ∈ rest, Value.IsDirect segment) := by
  refine ⟨fun c hhead hcheck items hitems => resolve_star k hkind hpath hfront hhead hcheck hitems,
    ⟨fun h => ?_, fun h v => ?_⟩, ⟨fun h => ?_, fun h v hv => ?_⟩⟩
  · intro segment hsegment
    by_contra hselector
    rw [Bool.not_eq_false] at hselector
    obtain ⟨v, hv⟩ := Value.exists_walk_ne_of_selector ⟨segment, hsegment, hselector⟩
    exact hv (walk_eq_of_distributes k hkind hpath hfront (h _))
  · exact distributes_of_walk_eq k hkind hpath hfront fun _ _ item _ =>
      Value.collectionWalk_of_not_selector h item
  · refine Value.isDirect_of_collectionWalk_eq fun v hv => ?_
    have hlist : (Value.array [v]).Plain := .array (List.forall_mem_singleton.mpr hv)
    exact walk_eq_of_distributes k hkind hpath hfront (h _ (Value.plain_plantedAt hlist _))
  · refine distributes_of_walk_eq k hkind hpath hfront fun items hitems item hitem => ?_
    have hplain := (hv.collectionWalk hfront).items hitems item hitem
    exact Value.collectionWalk_eq_lookupPath hplain h

/-- Behind a star a path of names is walked in every item. -/
theorem distributes_sku :
    (Token.parse "Order.items.*.sku").kind = .collection ∧
      (Token.parse "Order.items.*.sku").fieldPath = ["items"] ++ "*" :: ["sku"] ∧
      "*" ∉ ["items"] ∧
      ∀ v, (ofList (Resolver.defaults wednesday)).Distributes (Token.parse "Order.items.*.sku")
        ["items"] ["sku"] v := by
  have hkind : (Token.parse "Order.items.*.sku").kind = .collection := by decide +kernel
  have hpath : (Token.parse "Order.items.*.sku").fieldPath = ["items"] ++ "*" :: ["sku"] := by
    decide +kernel
  have hselector : ∀ segment ∈ ["sku"], Token.isSelector segment = false :=
    List.forall_mem_singleton.mpr (by decide)
  exact ⟨hkind, hpath, by decide,
    (distributes_iff wednesday hkind hpath (by decide)).2.1.mpr hselector⟩

def taggedItems : Value :=
  .object [("items", .array [.object [("tags", .array [.string "a", .string "b"])]])]

/-- The first tag of every item is not found behind a star. -/
theorem not_distributes_first :
    (Token.parse "Order.items.*.tags.first").kind = .collection ∧
      (Token.parse "Order.items.*.tags.first").fieldPath = ["items"] ++ "*" :: ["tags", "first"] ∧
      (Context.ofData taggedItems).expectedHead = none ∧
      (Context.ofData taggedItems).source.check "items.*.tags.first" = .ok () ∧
      (taggedItems.collectionWalk ["items"]).items? =
        some [.object [("tags", .array [.string "a", .string "b"])]] ∧
      (ofList (Resolver.defaults wednesday)).resolve (Token.parse "Order.items.*.tags.first")
        (Context.ofData taggedItems) = .ok (.array []) ∧
      Value.walkEach [.object [("tags", .array [.string "a", .string "b"])]] ["tags", "first"] =
        .array [.string "a"] ∧
      ¬ (ofList (Resolver.defaults wednesday)).Distributes
        (Token.parse "Order.items.*.tags.first") ["items"] ["tags", "first"] taggedItems := by
  have hkind : (Token.parse "Order.items.*.tags.first").kind = .collection := by decide +kernel
  have hpath : (Token.parse "Order.items.*.tags.first").fieldPath =
      ["items"] ++ "*" :: ["tags", "first"] := by decide +kernel
  have hitems : (taggedItems.collectionWalk ["items"]).items? =
      some [.object [("tags", .array [.string "a", .string "b"])]] := by rfl
  have hresolve := resolve_star wednesday hkind hpath (by decide) (c := Context.ofData taggedItems)
    rfl rfl hitems
  have hwalk : Value.walkEach [.object [("tags", .array [.string "a", .string "b"])]]
      ["tags", "first"] = .array [.string "a"] := by rfl
  refine ⟨hkind, hpath, rfl, rfl, hitems, hresolve, hwalk, fun h => ?_⟩
  have heq := h (Context.ofData taggedItems) rfl rfl rfl _ hitems
  rw [hresolve, hwalk] at heq
  cases heq

end Pipeline

end Placeholder
