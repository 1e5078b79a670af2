import Mathlib
import Placeholder.Proofs.Coalescing

/-!
# Dots in brackets

A path is not cut at the dots inside brackets, so a segment may have dots of its own. The resolvers
of models, relations and tables join the segments by dots, and the source cuts the text at every
dot again. So a token leads along the pieces of its segments. These are the segments themselves,
one hop for each, exactly when no segment has a dot.
-/

namespace Placeholder

/-! ### Hops -/

namespace Token

/-- The segments that the resolver of a model, a relation or a table goes along, if the field path
is long enough for it. -/
def walked? (t : Token) : Option (List String) :=
  match t.kind with
  | .table => if t.fieldPath.isEmpty then none else some t.path
  | .relation => if t.fieldPath.length < 2 then none else some t.fieldPath
  | _ => if t.fieldPath.isEmpty then none else some t.fieldPath

/-- What the segments of a token lead to in `v`, one hop for each. -/
def hops (t : Token) (v : Value) : Value :=
  t.walked?.elim .null v.lookupPath

/-- No segment that the resolver goes along has a dot. -/
def Undotted (t : Token) : Prop :=
  ∀ path ∈ t.walked?, ∀ segment ∈ path, '.' ∉ segment.toList

variable {t : Token} {p : String}

theorem mem_path_of_walked? {path : List String} (h : path ∈ t.walked?) :
    path ≠ [] ∧ ∀ segment ∈ path, segment ∈ t.path := by
  have hfield : ∀ segment ∈ t.fieldPath, segment ∈ t.path := fun _ => List.mem_of_mem_drop
  rw [Option.mem_def, walked?] at h
  split at h
  · split_ifs at h with hempty
    cases h
    rw [List.isEmpty_iff] at hempty
    rw [path_eq_cons_fieldPath hempty]
    exact ⟨List.cons_ne_nil _ _, fun _ => id⟩
  · split_ifs at h with hshort
    cases h
    exact ⟨List.ne_nil_of_length_pos (by omega), hfield⟩
  · split_ifs at h with hempty
    cases h
    exact ⟨fun hnil => hempty (List.isEmpty_iff.mpr hnil), hfield⟩

theorem reached_eq_lookupDotted (hkind : (parse p).kind ∈ [.model, .relation, .table])
    (v : Value) :
    (parse p).reached v =
      (parse p).walked?.elim .null fun path => v.lookupDotted (Text.join "." path) := by
  have hpick : ∀ (path : List String) (b : Bool),
      (if b then Value.null else v.lookupDotted (Text.join "." path)) =
        (if b then none else some path).elim Value.null fun path =>
          v.lookupDotted (Text.join "." path) := by
    intro path b
    cases b <;> rfl
  simp only [List.mem_cons, List.not_mem_nil, or_false] at hkind
  rcases hkind with hmodel | hrelation | htable
  · rw [reached, walked?, hmodel]
    exact hpick _ _
  · have hlength := length_fieldPath_of_relation hrelation
    have hne : (parse p).fieldPath ≠ [] := List.ne_nil_of_length_pos (by omega)
    rw [reached, walked?, hrelation]
    simp only [Value.field_of_ne_nil v hne, if_neg (not_lt.mpr hlength), Option.elim_some]
  · rw [reached, walked?, htable]
    exact hpick _ _

/-- A token leads along the pieces of its segments. -/
theorem reached_eq_pieces (hkind : (parse p).kind ∈ [.model, .relation, .table]) (v : Value) :
    (parse p).reached v = (parse p).walked?.elim .null fun path =>
      v.lookupPath (path.flatMap (Text.splitString '.')) := by
  rw [reached_eq_lookupDotted hkind]
  cases hwalked : (parse p).walked? with
  | none => rfl
  | some path =>
    have hne := (mem_path_of_walked? hwalked).1
    rw [Option.elim_some, Option.elim_some, Value.lookupDotted,
      Text.splitString_join_eq_flatMap hne]

theorem Undotted.reached_eq_hops (h : (parse p).Undotted)
    (hkind : (parse p).kind ∈ [.model, .relation, .table]) (v : Value) :
    (parse p).reached v = (parse p).hops v := by
  rw [reached_eq_pieces hkind, hops]
  cases hwalked : (parse p).walked? with
  | none => rfl
  | some path =>
    rw [Option.elim_some, Option.elim_some, Text.flatMap_splitString (h path hwalked)]

/-- Objects that are nested along the pieces tell the pieces from the segments. -/
theorem undotted_of_reached_eq_hops (hkind : (parse p).kind ∈ [.model, .relation, .table])
    (h : ∀ keys, keys ≠ [] → (parse p).reached (Value.plantedAt (.bool true) keys) =
      (parse p).hops (Value.plantedAt (.bool true) keys)) : (parse p).Undotted := by
  intro path hwalked
  have hne := (mem_path_of_walked? hwalked).1
  have hkeys := h _ (Text.splitString_ne_nil '.' (Text.join "." path))
  rw [reached_eq_lookupDotted hkind, hops, hwalked, Option.elim_some, Option.elim_some,
    Value.lookupDotted, Value.lookupPath_plantedAt] at hkeys
  -- The leaf lies at the end of the pieces, and no other path leads to it.
  have hsame := Value.eq_of_lookupPath_eq_bool hkeys.symm
  exact Text.not_mem_of_length_splitString_join hne (congrArg List.length hsame.symm)

end Token

/-! ### The default pipeline -/

namespace Pipeline

variable {k : Clock} {p : String}

/-- Over the data `v` the token has the value that its own segments lead to, one hop for each. -/
def HopsAlong (pl : Pipeline) (t : Token) (v : Value) : Prop :=
  ∀ c : Context, c.expectedHead = none → c.source = Source.ofData v →
    pl.resolve t c = .ok (t.hops v)

theorem resolve_model_relation_table (k : Clock)
    (hkind : (Token.parse p).kind ∈ [.model, .relation, .table]) {v : Value} {c : Context}
    (hhead : c.expectedHead = none) (hsource : c.source = Source.ofData v) :
    (ofList (Resolver.defaults k)).resolve (Token.parse p) c = .ok ((Token.parse p).reached v) :=
  resolve_path (List.mem_append_left [TokenKind.collection] hkind) hhead hsource

theorem hopsAlong_iff_reached (k : Clock)
    (hkind : (Token.parse p).kind ∈ [.model, .relation, .table]) (v : Value) :
    (ofList (Resolver.defaults k)).HopsAlong (Token.parse p) v ↔
      (Token.parse p).reached v = (Token.parse p).hops v := by
  constructor
  · intro h
    have heq := h (Context.ofData v) rfl rfl
    rw [resolve_model_relation_table k hkind rfl rfl] at heq
    exact Except.ok.inj heq
  · intro h c hhead hsource
    rw [resolve_model_relation_table k hkind hhead hsource, h]

/-- A token of a model, a relation or a table has the value that the pieces of its segments lead to.
That is the value along the segments themselves over all plain objects exactly when no segment has
a dot, and then it is so over any data. -/
theorem hopsAlong_iff (k : Clock) (hkind : (Token.parse p).kind ∈ [.model, .relation, .table]) :
    (∀ (v : Value) (c : Context), c.expectedHead = none → c.source = Source.ofData v →
        (ofList (Resolver.defaults k)).resolve (Token.parse p) c =
          .ok ((Token.parse p).walked?.elim .null fun path =>
            v.lookupPath (path.flatMap (Text.splitString '.')))) ∧
      ((∀ entries : Entries Value, (Value.object entries).Plain →
          (ofList (Resolver.defaults k)).HopsAlong (Token.parse p) (.object entries)) ↔
        (Token.parse p).Undotted) ∧
      ((Token.parse p).Undotted →
        ∀ v, (ofList (Resolver.defaults k)).HopsAlong (Token.parse p) v) := by
  have hundotted : (Token.parse p).Undotted →
      ∀ v, (ofList (Resolver.defaults k)).HopsAlong (Token.parse p) v := fun h v =>
    (hopsAlong_iff_reached k hkind v).mpr (h.reached_eq_hops hkind v)
  refine ⟨fun v c hhead hsource => ?_, ⟨fun h => ?_, fun h entries _ => ?_⟩, hundotted⟩
  · rw [resolve_model_relation_table k hkind hhead hsource, Token.reached_eq_pieces hkind]
  · refine Token.undotted_of_reached_eq_hops hkind fun keys hkeys => ?_
    have hplain := Value.plain_plantedAt (.bool true) keys
    obtain ⟨entries, hobject⟩ := Value.exists_plantedAt_eq_object (.bool true) hkeys
    rw [hobject] at hplain ⊢
    exact (hopsAlong_iff_reached k hkind _).mp (h entries hplain)
  · exact hundotted h _

/-- The bracketed segment stands under two names, as it is and cut at its dot. -/
def bracketedItems : Value :=
  .object [("items[a.b]", .string "x"), ("items[a", .object [("b]", .string "y")])]

theorem walked?_bracketed :
    (Token.parse "Order.items[a.b]").kind = .model ∧
      (Token.parse "Order.items[a.b]").walked? = some ["items[a.b]"] := by
  decide +kernel

/-- The pieces of the bracketed segment are followed, whatever stands under the segment itself. -/
theorem resolve_bracketed :
    (Token.parse "Order.items[a.b]").kind ∈ [.model, .relation, .table] ∧
      (Context.ofData bracketedItems).expectedHead = none ∧
      (Context.ofData bracketedItems).source = Source.ofData bracketedItems ∧
      (ofList (Resolver.defaults wednesday)).resolve (Token.parse "Order.items[a.b]")
        (Context.ofData bracketedItems) = .ok (.string "y") ∧
      ¬ (Token.parse "Order.items[a.b]").Undotted := by
  obtain ⟨hkind, hwalked⟩ := walked?_bracketed
  have hmem : (Token.parse "Order.items[a.b]").kind ∈ [.model, .relation, .table] := by simp [hkind]
  have hmain := (hopsAlong_iff wednesday hmem).1 bracketedItems (Context.ofData bracketedItems)
    rfl rfl
  have hpieces : ["items[a.b]"].flatMap (Text.splitString '.') = ["items[a", "b]"] := by decide
  rw [hwalked, Option.elim_some, hpieces] at hmain
  refine ⟨hmem, rfl, rfl, hmain, fun h => ?_⟩
  exact h _ hwalked _ List.mem_cons_self (by decide)

/-- The bracketed segment is not looked up as it is. -/
theorem not_hopsAlong_bracketed :
    (Token.parse "Order.items[a.b]").kind = .model ∧
      (Token.parse "Order.items[a.b]").hops (.object [("items[a.b]", .string "x")]) = .string "x" ∧
      (ofList (Resolver.defaults wednesday)).resolve (Token.parse "Order.items[a.b]")
        (Context.ofData (.object [("items[a.b]", .string "x")])) = .ok .null ∧
      (Value.object [("items[a.b]", .string "x")]).Plain ∧
      ¬ (ofList (Resolver.defaults wednesday)).HopsAlong (Token.parse "Order.items[a.b]")
        (.object [("items[a.b]", .string "x")]) := by
  obtain ⟨hkind, hwalked⟩ := walked?_bracketed
  have hmem : (Token.parse "Order.items[a.b]").kind ∈ [.model, .relation, .table] := by simp [hkind]
  have hhops : (Token.parse "Order.items[a.b]").hops (.object [("items[a.b]", .string "x")]) =
      .string "x" := by
    rw [Token.hops, hwalked]
    exact Value.lookupPath_plantedAt (.string "x") ["items[a.b]"]
  have hpieces : ["items[a.b]"].flatMap (Text.splitString '.') = ["items[a", "b]"] := by decide
  have hreached : (Token.parse "Order.items[a.b]").reached
      (.object [("items[a.b]", .string "x")]) = .null := by
    rw [Token.reached_eq_pieces hmem, hwalked, Option.elim_some, hpieces, Value.lookupPath_cons,
      Value.lookup, Entries.get?_cons, if_neg (by decide)]
    exact Value.lookupPath_null ["b]"]
  have hresolve := resolve_model_relation_table wednesday hmem
    (c := Context.ofData (.object [("items[a.b]", .string "x")])) rfl rfl
  rw [hreached] at hresolve
  refine ⟨hkind, hhops, hresolve, ?_, fun h => ?_⟩
  · refine .object fun e he => ?_
    rw [List.mem_singleton.mp he]
    exact .string "x"
  · rw [hopsAlong_iff_reached wednesday hmem, hreached, hhops] at h
    cases h

end Pipeline

end Placeholder
