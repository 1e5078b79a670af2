import Mathlib
import Placeholder.Pipeline
import Placeholder.Proofs.PlainData
import Placeholder.Proofs.Trimming
import Placeholder.Token.Classify

/-!
# Defaults behind a path

A path with a default and the path alone over plain data. The path with a default always looks up
its field path, whatever the path alone would do: a table is asked for its whole path and a
collection is walked. So the default takes the place of `null` and of nothing else exactly when
these ways agree, which they do for models and relations, for tables without a field path, and for
collections whose field path has only keys.
-/

namespace Placeholder

/-! ### The two tokens -/

namespace Token

/-- The path `p` with the default `d` in quotes. -/
def coalesced (p d : String) : String :=
  p ++ " ?? '" ++ d ++ "'"

theorem kind_ofTemporal (cs : List Char) : (ofTemporal cs).kind = .temporal := by
  unfold ofTemporal
  rfl

theorem kind_ofCall (cs : List Char) :
    (ofCall cs).kind = .function ∨ (ofCall cs).kind = .unknown := by
  unfold ofCall
  split
  · exact Or.inl rfl
  · exact Or.inr rfl

/-- A token that reads a path without an indicator is the trimmed text cut at its dots. -/
theorem parse_eq_ofPath {p : String}
    (h : (parse p).kind ∈ [.model, .relation, .table, .collection]) :
    parse p = ofPath (Text.trim p.toList) := by
  unfold parse classify classifyTrimmed at h ⊢
  split at h
  · simp [ofCoalesce] at h
  · split_ifs at h ⊢ with htemporal hcall hvariable hmath
    · simp [kind_ofTemporal] at h
    · rcases kind_ofCall (Text.trim p.toList) with hkind | hkind <;> simp [hkind] at h
    · simp at h
    · simp at h
    · rfl

theorem trim_ne_nil_of_kind {p : String}
    (h : (parse p).kind ∈ [.model, .relation, .table, .collection]) :
    Text.trim p.toList ≠ [] := by
  intro hnil
  rw [parse_eq_ofPath h, hnil] at h
  exact absurd h (by decide)

theorem path_eq_cons_fieldPath {t : Token} (h : t.fieldPath ≠ []) :
    t.path = t.head :: t.fieldPath := by
  obtain ⟨raw, kind, path, function, args, default, metadata⟩ := t
  cases path with
  | nil => exact absurd rfl h
  | cons head rest => rfl

theorem length_fieldPath_of_relation {p : String} (h : (parse p).kind = .relation) :
    2 ≤ (parse p).fieldPath.length := by
  have hpath : parse p = ofPath (Text.trim p.toList) := parse_eq_ofPath (by simp [h])
  rw [hpath] at h ⊢
  simp only [ofPath, pathKind] at h
  rw [fieldPath, List.length_drop]
  split_ifs at h with _ _ _ hlong
  exact Nat.le_sub_of_add_le hlong

theorem toList_coalesced (p d : String) :
    (coalesced p d).toList = p.toList ++ " ?? '".toList ++ d.toList ++ "'".toList := by
  simp only [coalesced, String.toList_append]

theorem not_infix_before_mark {front : List Char} (h : ¬ "??".toList <:+: front) :
    ¬ "??".toList <:+: front ++ [' '] ++ ['?'] := by
  have hlast : ∀ rest start : List Char, rest ++ "??".toList ≠ start ++ [' '] ∧
      rest ++ "??".toList ≠ start ++ [' '] ++ ['?'] := fun rest start =>
    ⟨fun heq => by simpa using congrArg List.reverse heq,
      fun heq => by simpa using congrArg List.reverse heq⟩
  rw [List.infix_concat_iff, List.infix_concat_iff]
  rintro (⟨rest, hrest⟩ | ⟨rest, hrest⟩ | hin)
  · exact (hlast rest front).2 hrest
  · exact (hlast rest front).1 hrest
  · exact h hin

/-- What is trimmed of the whole text stands in front of the path, since the text ends with a
quote. -/
theorem trim_coalesced {p : String} (hne : Text.trim p.toList ≠ []) (d : String) :
    ∃ after, Text.Padding after ∧ Text.trim p.toList ++ after <:+: p.toList ∧
      Text.trim (coalesced p d).toList = Text.trim p.toList ++ after ++ [' '] ++ "??".toList ++
        (" '".toList ++ d.toList ++ ['\'']) := by
  obtain ⟨before, after, hbefore, hafter, hp⟩ := Text.exists_padding_trim p.toList
  obtain ⟨c, rest, htrim⟩ := List.exists_cons_of_ne_nil hne
  have hc : Text.isBlank c = false :=
    (show Text.Trimmed (c :: rest) from htrim ▸ Text.trimmed_trim p.toList).head_not_blank
  have htext : (coalesced p d).toList =
      before ++ (c :: (rest ++ after ++ [' '] ++ "??".toList ++
        (" '".toList ++ d.toList ++ ['\'']))) ++ [] := by
    rw [toList_coalesced, hp, htrim]
    simp
  have hvisible : Text.EndsVisible (c :: (rest ++ after ++ [' '] ++ "??".toList ++
      (" '".toList ++ d.toList ++ ['\'']))) :=
    ⟨c :: (rest ++ after ++ [' '] ++ "??".toList ++ (" '".toList ++ d.toList)), '\'',
      by simp, by decide⟩
  refine ⟨after, hafter, ⟨before, [], by rw [List.append_nil, ← List.append_assoc, ← hp]⟩, ?_⟩
  rw [htext, Text.trim_padded hbefore Text.padding_nil, hvisible.trimmed_cons hc, htrim]
  simp

/-- Where a text that is not blank has no `??`, a default behind it is cut off where it begins. -/
theorem parse_coalesced {p : String} (hmark : ¬ "??".toList <:+: p.toList)
    (hne : Text.trim p.toList ≠ []) (d : String) :
    ∃ cs front, parse (coalesced p d) = ofCoalesce cs front (" '".toList ++ d.toList ++ ['\'']) ∧
      Text.trim front = Text.trim p.toList := by
  obtain ⟨after, hafter, hinside, hwhole⟩ := trim_coalesced hne d
  have hcut : Text.cut? "??".toList (Text.trim (coalesced p d).toList) =
      some (Text.trim p.toList ++ after ++ [' '], " '".toList ++ d.toList ++ ['\'']) := by
    rw [hwhole]
    exact Text.cut?_append (by decide)
      (not_infix_before_mark fun hin => hmark (hin.trans hinside)) _
  have hspace : Text.Padding (after ++ [' ']) :=
    Text.padding_append.mpr ⟨hafter, by simp [Text.Padding, Text.isBlank]⟩
  have hpadded := Text.trim_padded Text.padding_nil hspace (Text.trim p.toList)
  rw [List.nil_append, ← List.append_assoc, Text.trim_trim] at hpadded
  refine ⟨Text.trim (coalesced p d).toList, _, ?_, hpadded⟩
  unfold parse classify classifyTrimmed
  rw [hcut]

theorem isQuoteMargin_iff {c : Char} (hblank : Text.isBlank c = false)
    (hquotes : c ≠ '\'' ∧ c ≠ '"') : isQuoteMargin c = false ↔ c ≠ '\x00' := by
  have hspaces : c ∉ [' ', '\t', '\n', '\r', '\x0b'] := by
    intro hc
    fin_cases hc <;> simp [Text.isBlank] at hblank
  simp only [List.mem_cons, List.not_mem_nil, or_false, not_or] at hspaces
  simp [isQuoteMargin, hspaces, hquotes]

/-- The default that a token keeps of `d` in quotes. -/
def keptDefault (d : String) : Option String :=
  let kept := Text.trimBy isQuoteMargin (" '".toList ++ d.toList ++ ['\''])
  if kept.isEmpty then none else some (String.ofList kept)

theorem keptDefault_eq_some_iff {d : String} (hne : d ≠ "") (htrimmed : Text.Trimmed d.toList)
    (hquotes : '\'' ∉ d.toList ∧ '"' ∉ d.toList) :
    keptDefault d = some d ↔
      ∀ c, d.toList.head? = some c ∨ d.toList.getLast? = some c → c ≠ '\x00' := by
  have hnil : d.toList ≠ [] := fun h => hne (String.toList_eq_nil_iff.mp h)
  have hmargin : ∀ c, d.toList.head? = some c ∨ d.toList.getLast? = some c →
      (isQuoteMargin c = false ↔ c ≠ '\x00') := by
    intro c hc
    have hmem : c ∈ d.toList := hc.elim List.mem_of_head? List.mem_of_getLast?
    have hblank : Text.isBlank c = false := by
      rcases hc with hhead | hlast
      · obtain ⟨rest, hrest⟩ := List.head?_eq_some_iff.mp hhead
        exact Text.Trimmed.head_not_blank (hrest ▸ htrimmed)
      · obtain ⟨start, hstart⟩ := List.getLast?_eq_some_iff.mp hlast
        exact Text.Trimmed.last_not_blank (hstart ▸ htrimmed)
    exact isQuoteMargin_iff hblank
      ⟨fun h => hquotes.1 (h ▸ hmem), fun h => hquotes.2 (h ▸ hmem)⟩
  have hkept : keptDefault d = some d ↔
      Text.trimBy isQuoteMargin (" '".toList ++ d.toList ++ ['\'']) = d.toList := by
    rw [keptDefault]
    split
    · next hempty =>
      rw [List.isEmpty_iff] at hempty
      rw [hempty]
      exact ⟨fun h => absurd h (Option.some_ne_none d).symm, fun h => absurd h.symm hnil⟩
    · rw [Option.some_inj, ← String.toList_inj, String.toList_ofList]
  rw [hkept, Text.trimBy_enclosed_iff hnil (by simp [isQuoteMargin]) (by simp [isQuoteMargin])]
  exact forall₂_congr hmargin

theorem parse_coalesced_fields {p : String} (hmark : ¬ "??".toList <:+: p.toList)
    (hkind : (parse p).kind ∈ [.model, .relation, .table, .collection]) (d : String) :
    (parse (coalesced p d)).kind = .nullCoalesce ∧
      (parse (coalesced p d)).path = (parse p).path ∧
        (parse (coalesced p d)).default = keptDefault d := by
  obtain ⟨cs, front, hparse, hfront⟩ := parse_coalesced hmark (trim_ne_nil_of_kind hkind) d
  rw [hparse, parse_eq_ofPath hkind, ofCoalesce, hfront]
  exact ⟨rfl, rfl, rfl⟩

end Token

/-! ### What the default pipeline makes of them -/

namespace Resolver

/-- The default resolver of the tokens of a kind. -/
def ofKind? (k : Clock) : TokenKind → Option Resolver
  | .temporal => some (temporal k)
  | .nullCoalesce => some nullCoalesce
  | .contextVariable => some contextVariable
  | .dynamic => some dynamic
  | .collection => some collection
  | .relation => some relation
  | .model => some model
  | .table => some table
  | _ => none

end Resolver

namespace Pipeline

theorem resolvers_defaults (k : Clock) :
    (ofList (Resolver.defaults k)).resolvers = Resolver.defaults k := by
  refine List.mergeSort_of_pairwise ?_
  simp [Resolver.defaults, Resolver.temporal, Resolver.nullCoalesce, Resolver.contextVariable,
    Resolver.dynamic, Resolver.collection, Resolver.relation, Resolver.model, Resolver.table,
    Resolver.ofKinds]

theorem resolverFor?_defaults (k : Clock) (t : Token) (c : Context) :
    (ofList (Resolver.defaults k)).resolverFor? t c = Resolver.ofKind? k t.kind := by
  rw [resolverFor?, resolvers_defaults]
  obtain ⟨raw, kind, path, function, args, default, metadata⟩ := t
  cases kind <;> rfl

theorem resolve_defaults {k : Clock} {t : Token} {r : Resolver}
    (h : Resolver.ofKind? k t.kind = some r) (c : Context) :
    (ofList (Resolver.defaults k)).resolve t c = r.resolve t c := by
  rw [resolve, resolverFor?_defaults, h]

end Pipeline

namespace Value

def orElse (v default : Value) : Value :=
  if v.isNull then default else v

/-- What the field path of a model leads to. -/
def field (v : Value) (path : List String) : Value :=
  if path.isEmpty then null else v.lookupDotted (Text.join "." path)

end Value

namespace Token

/-- What the path of a token leads to in `v`, by the rule for its kind. -/
def reached (t : Token) (v : Value) : Value :=
  match t.kind with
  | .table => if t.fieldPath.isEmpty then .null else v.lookupDotted (Text.join "." t.path)
  | .collection => v.collectionWalk t.fieldPath
  | _ => v.field t.fieldPath

end Token

namespace Pipeline

variable {k : Clock} {c : Context} {v : Value}

theorem follow_ofData (hsource : c.source = Source.ofData v) (path : List String) :
    c.follow path = .ok (v.lookupDotted (Text.join "." path)) := by
  rw [Context.follow, hsource]
  rfl

theorem resolve_coalesced {t : Token} (hkind : t.kind = .nullCoalesce)
    (hsource : c.source = Source.ofData v) :
    (ofList (Resolver.defaults k)).resolve t c =
      .ok ((v.field t.fieldPath).orElse (Value.ofOption (t.default.map .string))) := by
  rw [resolve_defaults (by rw [hkind]; rfl)]
  simp only [Resolver.nullCoalesce, Resolver.ofKinds, follow_ofData hsource, Value.field]
  split <;> rfl

theorem resolve_collection {t : Token} (hkind : t.kind = .collection)
    (hhead : c.expectedHead = none) (hsource : c.source = Source.ofData v) :
    (ofList (Resolver.defaults k)).resolve t c = .ok (v.collectionWalk t.fieldPath) := by
  have hexpects : c.expects t = true := by rw [Context.expects, hhead]
  rw [resolve_defaults (by rw [hkind]; rfl),
    Resolver.resolve_collection hexpects (by rw [hsource]; rfl), hsource]
  rfl

theorem resolve_path {p : String}
    (hkind : (Token.parse p).kind ∈ [.model, .relation, .table, .collection])
    (hhead : c.expectedHead = none) (hsource : c.source = Source.ofData v) :
    (ofList (Resolver.defaults k)).resolve (Token.parse p) c = .ok ((Token.parse p).reached v) := by
  have hexpects : c.expects (Token.parse p) = true := by rw [Context.expects, hhead]
  simp only [List.mem_cons, List.not_mem_nil, or_false] at hkind
  rcases hkind with hmodel | hrelation | htable | hcollection
  · rw [resolve_defaults (by rw [hmodel]; rfl), Token.reached, hmodel]
    simp only [Resolver.model, Resolver.ofKinds, hexpects, follow_ofData hsource, Value.field,
      Bool.not_true, Bool.false_or]
    split <;> rfl
  · have hlength := Token.length_fieldPath_of_relation hrelation
    have hfield : (Token.parse p).fieldPath.isEmpty = false := by
      rw [List.isEmpty_eq_false_iff]
      exact List.ne_nil_of_length_pos (by omega)
    rw [resolve_defaults (by rw [hrelation]; rfl), Token.reached, hrelation]
    simp only [Resolver.relation, Resolver.ofKinds, hexpects, follow_ofData hsource, Value.field,
      hfield, Bool.not_true, Bool.false_or, not_lt.mpr hlength, decide_false, Bool.false_eq_true,
      if_false]
  · rw [resolve_defaults (by rw [htable]; rfl), Token.reached, htable]
    simp only [Resolver.table, Resolver.ofKinds, follow_ofData hsource]
    split <;> rfl
  · rw [resolve_collection hcollection hhead hsource, Token.reached, hcollection]

end Pipeline

/-! ### Where the default takes the place of `null` alone -/

namespace Value

theorem field_empty (path : List String) : (object []).field path = null := by
  rw [field]
  split
  · rfl
  · rw [lookupDotted]
    exact lookupPath_of_lookup_null (fun _ => rfl) (Text.splitString_ne_nil _ _)

theorem field_of_ne_nil (v : Value) {path : List String} (hne : path ≠ []) :
    v.field path = v.lookupDotted (Text.join "." path) := by
  rw [field, List.isEmpty_eq_false_iff.mpr hne]
  rfl

/-- A default cannot stand for a value that is neither `null` nor a text. -/
theorem eq_of_orElse_eq {v w : Value} {kept : Option String} {d : String}
    (h : v.orElse (ofOption (kept.map string)) = w.orElse (string d)) (hnull : w.isNull = false)
    (htext : ∀ s, w ≠ string s) : v = w := by
  have hw : w.orElse (string d) = w := by
    rw [orElse, hnull]
    rfl
  rw [hw, orElse] at h
  split at h
  · cases kept with
    | none =>
      rw [← h] at hnull
      cases hnull
    | some s => exact absurd h.symm (htext s)
  · exact h

theorem exists_plantedAt_eq_object (leaf : Value) {keys : List String} (hne : keys ≠ []) :
    ∃ entries, plantedAt leaf keys = object entries := by
  obtain ⟨key, rest, rfl⟩ := List.exists_cons_of_ne_nil hne
  exact ⟨_, rfl⟩

end Value

/-- The path of the token leads where its field path does, without a head that names a table and
without segments that select among items. -/
structure Token.ReadsField (t : Token) : Prop where
  table : t.kind = .table → t.fieldPath = []
  collection : t.kind = .collection →
    t.fieldPath ≠ [] ∧ ∀ segment ∈ t.fieldPath, Value.IsKey segment

theorem Token.ReadsField.reached_eq {t : Token} (h : t.ReadsField) {v : Value} (hv : v.Plain) :
    t.reached v = v.field t.fieldPath := by
  unfold reached
  split
  · next hkind =>
    rw [h.table hkind]
    rfl
  · next hkind =>
    obtain ⟨hne, hkeys⟩ := h.collection hkind
    rw [Value.field_of_ne_nil v hne, Value.collectionWalk_eq_lookupDotted hv hne hkeys]
  · rfl

/-- The value with the default `d` and that of the path alone, over every plain object. -/
def Token.Agrees (t : Token) (d : String) : Prop :=
  ∀ entries : Entries Value, (Value.object entries).Plain →
    ((Value.object entries).field t.fieldPath).orElse
        (.ofOption ((keptDefault d).map .string)) =
      (t.reached (.object entries)).orElse (.string d)

namespace Token.Agrees

variable {t : Token} {d : String}

/-- Where the path leads to something other than a text, the field path leads to it too. -/
theorem field_eq (h : t.Agrees d) {keys : List String} (hkeys : keys ≠ []) {w : Value}
    (hw : t.reached (Value.plantedAt (.bool true) keys) = w) (hnull : w.isNull = false)
    (htext : ∀ s, w ≠ .string s) :
    (Value.plantedAt (.bool true) keys).field t.fieldPath = w := by
  have hplain := Value.plain_plantedAt (.bool true) keys
  obtain ⟨entries, hobject⟩ := Value.exists_plantedAt_eq_object (.bool true) hkeys
  rw [hobject] at hw hplain ⊢
  have heq := h entries hplain
  rw [hw] at heq
  exact Value.eq_of_orElse_eq heq hnull htext

theorem fieldPath_of_table (h : t.Agrees d) (hkind : t.kind = .table) : t.fieldPath = [] := by
  by_contra hne
  have hpath := path_eq_cons_fieldPath hne
  have hreached : t.reached (Value.plantedAt (.bool true)
      (Text.splitString '.' (Text.join "." t.path))) = .bool true := by
    rw [Token.reached, hkind]
    simp only [List.isEmpty_eq_false_iff.mpr hne, Bool.false_eq_true, if_false]
    exact Value.lookupPath_plantedAt _ _
  have hfield := h.field_eq (Text.splitString_ne_nil _ _) hreached rfl fun s => Value.noConfusion
  rw [Value.field_of_ne_nil _ hne, Value.lookupDotted] at hfield
  have heq := Value.eq_of_lookupPath_eq_bool hfield
  rw [hpath] at heq
  exact Text.splitString_join_ne t.head hne heq

theorem isKey_of_collection (h : t.Agrees d) (hkind : t.kind = .collection) :
    t.fieldPath ≠ [] ∧ ∀ segment ∈ t.fieldPath, Value.IsKey segment := by
  have hreached : ∀ v, t.reached v = v.collectionWalk t.fieldPath := fun v => by
    rw [Token.reached, hkind]
  have hne : t.fieldPath ≠ [] := by
    intro hnil
    have heq := h [] (.object (List.forall_mem_nil _))
    rw [Value.field_empty, hreached, hnil, Value.collectionWalk_nil] at heq
    cases Value.eq_of_orElse_eq heq rfl fun s => Value.noConfusion
  have hkeys : Value.walkKeys t.fieldPath ≠ [] := by
    rw [← List.length_pos_iff, Value.length_walkKeys]
    exact List.length_pos_iff.mpr hne
  have hfield := h.field_eq hkeys (hreached _)
  rw [Value.field_of_ne_nil _ hne] at hfield
  refine ⟨hne, Value.isKey_of_lookupDotted_eq hne (hfield ?_ fun s => ?_)⟩
  · rw [Value.collectionWalk_plantedAt rfl]
    split <;> rfl
  · rw [Value.collectionWalk_plantedAt rfl]
    split <;> exact Value.noConfusion

theorem readsField (h : t.Agrees d) : t.ReadsField where
  table := h.fieldPath_of_table
  collection := h.isKey_of_collection

/-- Over the empty object there is only the default. -/
theorem keptDefault_eq (h : t.Agrees d) : keptDefault d = some d := by
  have hempty : (Value.object []).Plain := .object (List.forall_mem_nil _)
  have heq := h [] hempty
  rw [h.readsField.reached_eq hempty, Value.field_empty] at heq
  cases hkept : keptDefault d with
  | none =>
    rw [hkept] at heq
    cases heq
  | some kept =>
    rw [hkept] at heq
    exact congrArg some (Value.string.inj heq)

end Token.Agrees

theorem Token.agrees_iff (t : Token) (d : String) :
    t.Agrees d ↔ t.ReadsField ∧ keptDefault d = some d := by
  constructor
  · intro h
    exact ⟨h.readsField, h.keptDefault_eq⟩
  · rintro ⟨hreads, hkept⟩ entries hplain
    rw [hreads.reached_eq hplain, hkept]
    rfl

namespace Pipeline

variable {p d : String}

/-- Over plain objects the path `p` with the default `d` has the value of the path alone where that
is not `null`, the text `d` where it is `null`, and the same failure where it fails. -/
def FallsBack (pl : Pipeline) (p d : String) : Prop :=
  ∀ entries : Entries Value, (Value.object entries).Plain → ∀ c : Context,
    c.expectedHead = none → c.source = Source.ofData (.object entries) →
      pl.resolve (Token.parse (Token.coalesced p d)) c =
        (pl.resolve (Token.parse p) c).map fun v => if v.isNull then .string d else v

theorem fallsBack_iff_agrees (k : Clock) (hmark : ¬ "??".toList <:+: p.toList)
    (hkind : (Token.parse p).kind ∈ [.model, .relation, .table, .collection]) :
    (ofList (Resolver.defaults k)).FallsBack p d ↔ (Token.parse p).Agrees d := by
  obtain ⟨hcoalesce, hpath, hdefault⟩ := Token.parse_coalesced_fields hmark hkind d
  have hfieldPath : (Token.parse (Token.coalesced p d)).fieldPath = (Token.parse p).fieldPath := by
    rw [Token.fieldPath, hpath, Token.fieldPath]
  constructor
  · intro h entries hplain
    have heq := h entries hplain (Context.ofData (.object entries)) rfl rfl
    rw [resolve_coalesced hcoalesce rfl, resolve_path hkind rfl rfl, hfieldPath, hdefault] at heq
    exact Except.ok.inj heq
  · intro h entries hplain c hhead hsource
    rw [resolve_coalesced hcoalesce hsource, resolve_path hkind hhead hsource, hfieldPath, hdefault]
    exact congrArg Except.ok (h entries hplain)

/-- A default behind a path takes the place of `null`, and of nothing else, over all plain data
exactly when the path is read as its field path is and the default has no NUL at either end. -/
theorem fallsBack_iff (k : Clock) (hmark : ¬ "??".toList <:+: p.toList)
    (hkind : (Token.parse p).kind ∈ [.model, .relation, .table, .collection]) (hne : d ≠ "")
    (htrimmed : Text.Trimmed d.toList) (hquotes : '\'' ∉ d.toList ∧ '"' ∉ d.toList) :
    (ofList (Resolver.defaults k)).FallsBack p d ↔
      (Token.parse p).ReadsField ∧
        ∀ c, d.toList.head? = some c ∨ d.toList.getLast? = some c → c ≠ '\x00' := by
  rw [fallsBack_iff_agrees k hmark hkind, Token.agrees_iff,
    Token.keptDefault_eq_some_iff hne htrimmed hquotes]

/-- A fixed instant; paths are read alike at every one. -/
def wednesday : Clock :=
  { now := ⟨⟨2025, 12, 10, by decide⟩, Calendar.Time.midnight⟩ }

theorem fallsBack_sku :
    (¬ "??".toList <:+: "Order.items.0.sku".toList) ∧
      (Token.parse "Order.items.0.sku").kind ∈ [.model, .relation, .table, .collection] ∧
      "none" ≠ "" ∧ Text.Trimmed "none".toList ∧
      ('\'' ∉ "none".toList ∧ '"' ∉ "none".toList) ∧
      (ofList (Resolver.defaults wednesday)).FallsBack "Order.items.0.sku" "none" := by
  have hmark : ¬ "??".toList <:+: "Order.items.0.sku".toList := by decide
  have hkind : (Token.parse "Order.items.0.sku").kind ∈
      [.model, .relation, .table, .collection] := by decide +kernel
  have hpath : (Token.parse "Order.items.0.sku").fieldPath = ["items", "0", "sku"] := by
    decide +kernel
  have hitems : Value.IsKey "items" := ⟨by decide, by decide, by decide +kernel⟩
  have hzero : Value.IsKey "0" := ⟨by decide, by decide, by decide +kernel⟩
  have hsku : Value.IsKey "sku" := ⟨by decide, by decide, by decide +kernel⟩
  have hreads : (Token.parse "Order.items.0.sku").ReadsField :=
    { table := fun h => absurd h (by decide +kernel)
      collection := fun _ => by
        rw [hpath]
        exact ⟨List.cons_ne_nil _ _, by simp [hitems, hzero, hsku]⟩ }
  refine ⟨hmark, hkind, by decide, by decide, by decide, ?_⟩
  refine (fallsBack_iff wednesday hmark hkind (by decide) (by decide) (by decide)).mpr
    ⟨hreads, ?_⟩
  rintro c (hhead | hlast)
  · cases hhead
    decide
  · cases hlast
    decide

def users : Value :=
  .object [("users", .object [("name", .string "Ann")])]

/-- The default of a column of a table stands even where the table has the column. -/
theorem not_fallsBack_users :
    (¬ "??".toList <:+: "users.name".toList) ∧
      (Token.parse "users.name").kind ∈ [.model, .relation, .table, .collection] ∧
      "d" ≠ "" ∧ Text.Trimmed "d".toList ∧ ('\'' ∉ "d".toList ∧ '"' ∉ "d".toList) ∧
      users.Plain ∧
      (ofList (Resolver.defaults wednesday)).resolve (Token.parse "users.name")
        (Context.ofData users) = .ok (.string "Ann") ∧
      (ofList (Resolver.defaults wednesday)).resolve (Token.parse "users.name ?? 'd'")
        (Context.ofData users) = .ok (.string "d") ∧
      ¬ (ofList (Resolver.defaults wednesday)).FallsBack "users.name" "d" := by
  have hplain : users.Plain := .object fun e he => by
    rw [List.mem_singleton.mp he]
    exact .object fun e he => by
      rw [List.mem_singleton.mp he]
      exact .string "Ann"
  have halone : (ofList (Resolver.defaults wednesday)).resolve (Token.parse "users.name")
      (Context.ofData users) = .ok (.string "Ann") := by
    rw [resolve_defaults (r := Resolver.table) (by rfl)]
    rfl
  have hdefault : (ofList (Resolver.defaults wednesday)).resolve (Token.parse "users.name ?? 'd'")
      (Context.ofData users) = .ok (.string "d") := by
    rw [resolve_defaults (r := Resolver.nullCoalesce) (by rfl)]
    rfl
  refine ⟨by decide, by decide, by decide, by decide, by decide, hplain, halone, hdefault,
    fun h => ?_⟩
  have heq := h _ hplain (Context.ofData users) rfl rfl
  have htext : Token.coalesced "users.name" "d" = "users.name ?? 'd'" := by decide
  rw [htext, hdefault, halone] at heq
  have hsame : "d" = "Ann" := Value.string.inj (Except.ok.inj heq)
  exact absurd hsame (by decide)

end Pipeline

end Placeholder
