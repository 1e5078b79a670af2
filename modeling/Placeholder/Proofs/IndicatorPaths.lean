import Placeholder.Proofs.BracketedPaths

/-!
# Indicators

An indicator is a segment with a `$` in front. The path from it on, without the `$`, leads to the
name of a field, and the token has the value of that field. The kind of a token is read off its whole
path, and its indicator is looked for in the field path alone. So the first indicator of the path
counts exactly when it is not the head: an indicator at the head is passed over for the next one, and
alone it leads nowhere.
-/

namespace Placeholder

namespace Token

/-- The first indicator of a path is `$name`, between `front` and `rest`. -/
structure CutAtIndicator (path front : List String) (name : String) (rest : List String) :
    Prop where
  path_eq : path = front ++ ("$" ++ name) :: rest
  plain : ∀ segment ∈ front, isIndicator segment = false

theorem toList_dollar : "$".toList = ['$'] := by decide

theorem isIndicator_iff {segment : String} :
    isIndicator segment = true ↔ ∃ name, segment = "$" ++ name := by
  rw [isIndicator, beq_iff_eq, List.head?_eq_some_iff]
  constructor
  · rintro ⟨cs, hcs⟩
    refine ⟨String.ofList cs, String.toList_inj.mp ?_⟩
    rw [String.toList_append, toList_dollar, String.toList_ofList, hcs, List.singleton_append]
  · rintro ⟨name, rfl⟩
    exact ⟨name.toList, by rw [String.toList_append, toList_dollar, List.singleton_append]⟩

theorem isIndicator_dollar (name : String) : isIndicator ("$" ++ name) = true :=
  isIndicator_iff.mpr ⟨name, rfl⟩

theorem exists_cutAtIndicator {path : List String} (h : path.any isIndicator = true) :
    ∃ front name rest, CutAtIndicator path front name rest := by
  induction path with
  | nil => cases h
  | cons segment path ih =>
    cases hsegment : isIndicator segment with
    | true =>
      obtain ⟨name, rfl⟩ := isIndicator_iff.mp hsegment
      exact ⟨[], name, path, rfl, List.forall_mem_nil _⟩
    | false =>
      rw [List.any_cons, hsegment, Bool.false_or] at h
      obtain ⟨front, name, rest, hpath, hplain⟩ := ih h
      refine ⟨segment :: front, name, rest, by rw [hpath, List.cons_append], ?_⟩
      exact List.forall_mem_cons.mpr ⟨hsegment, hplain⟩

theorem CutAtIndicator.indicatorPath_eq {path front : List String} {name : String}
    {rest : List String} (h : CutAtIndicator path front name rest) :
    Resolver.indicatorPath path = name :: rest := by
  have hfront : ∀ segment ∈ front, (!isIndicator segment) = true := fun segment hsegment => by
    rw [h.plain segment hsegment]
    rfl
  have hname : ("$" ++ name).toList.drop 1 = name.toList := by
    rw [String.toList_append, toList_dollar, List.singleton_append, List.drop_one, List.tail_cons]
  rw [Resolver.indicatorPath, h.path_eq, List.dropWhile_append_of_pos hfront,
    List.dropWhile_cons_of_neg (by simp [isIndicator_dollar])]
  simp only [hname, String.ofList_toList]

theorem indicatorPath_eq_nil {path : List String} (h : path.any isIndicator = false) :
    Resolver.indicatorPath path = [] := by
  have hnone : path.dropWhile (fun segment => !isIndicator segment) = [] := by
    rw [List.dropWhile_eq_nil_iff]
    intro segment hsegment
    simp [List.any_eq_false.mp h segment hsegment]
  rw [Resolver.indicatorPath, hnone]

/-- A token that reads through an indicator has one on its path. -/
theorem any_isIndicator_of_dynamic {p : String} (h : (parse p).kind = .dynamic) :
    (parse p).path.any isIndicator = true := by
  unfold parse classify classifyTrimmed at h ⊢
  split at h
  · cases h
  · split_ifs at h ⊢
    · rw [kind_ofTemporal] at h
      cases h
    · rcases kind_ofCall (Text.trim p.toList) with hkind | hkind <;> simp [hkind] at h
    · dsimp only [ofPath, pathKind] at h ⊢
      split_ifs at h with hany
      exact hany

end Token

/-! ### The default pipeline -/

namespace Pipeline

open Token (CutAtIndicator)

variable {k : Clock} {t : Token} {p : String}

/-- What `path` leads to names the field that the token stands for. -/
structure ReadsThrough (pl : Pipeline) (t : Token) (c : Context) (path : List String) : Prop where
  named : ∀ field, c.source.get (Text.join "." path) = .ok (.string field) →
    pl.resolve t c = c.source.get field
  absent : c.source.get (Text.join "." path) = .ok .null → pl.resolve t c = .ok .null
  unnamed : ∀ v, c.source.get (Text.join "." path) = .ok v → v ≠ .null →
    (∀ field, v ≠ .string field) → pl.resolve t c = .error (.resolution (.forToken t.raw
      ("Dynamic field indicator must resolve to string, got: " ++ v.typeName)))
  failed : ∀ e, c.source.get (Text.join "." path) = .error e → pl.resolve t c = .error e

theorem resolve_dynamic (k : Clock) (hkind : t.kind = .dynamic) (c : Context) :
    (ofList (Resolver.defaults k)).resolve t c = Resolver.dynamic.resolve t c :=
  resolve_defaults (by rw [hkind]; rfl) c

/-- The first indicator of the field path is the one that counts. -/
theorem readsThrough_of_field (k : Clock) (hkind : t.kind = .dynamic) {front rest : List String}
    {name : String} (hcut : CutAtIndicator t.fieldPath front name rest) (c : Context) :
    (ofList (Resolver.defaults k)).ReadsThrough t c (name :: rest) := by
  obtain ⟨second, hresolve, hnull, hstring, hother⟩ : ∃ second : Value → Except Failure Value,
      (ofList (Resolver.defaults k)).resolve t c =
        c.source.get (Text.join "." (name :: rest)) >>= second ∧
      second .null = .ok .null ∧ (∀ field, second (.string field) = c.source.get field) ∧
      ∀ v, v ≠ .null → (∀ field, v ≠ .string field) →
        second v = .error (.resolution (.forToken t.raw
          ("Dynamic field indicator must resolve to string, got: " ++ v.typeName))) := by
    apply Exists.intro
    refine ⟨?_, ?_, fun field => ?_, fun v hnull hstring => ?_⟩
    · rw [resolve_dynamic k hkind, Resolver.dynamic, Resolver.ofKinds]
      dsimp only
      rw [hcut.indicatorPath_eq]
      rfl
    · rfl
    · rfl
    · cases v with
      | null => exact absurd rfl hnull
      | string field => exact absurd rfl (hstring field)
      | _ => rfl
  refine ⟨fun field hread => ?_, fun hread => ?_, fun v hread hv hfield => ?_, fun e hread => ?_⟩
  · rw [hresolve, hread]
    exact hstring field
  · rw [hresolve, hread]
    exact hnull
  · rw [hresolve, hread]
    exact hother v hv hfield
  · rw [hresolve, hread]
    rfl

theorem resolve_unindicated (k : Clock) (hkind : t.kind = .dynamic)
    (h : t.fieldPath.any Token.isIndicator = false) (c : Context) :
    (ofList (Resolver.defaults k)).resolve t c = .ok .null := by
  rw [resolve_dynamic k hkind, Resolver.dynamic, Resolver.ofKinds]
  dsimp only
  rw [Token.indicatorPath_eq_nil h]

/-- Over the objects that are nested along other pieces, reading through a path gives `null` or
fails. -/
theorem ReadsThrough.resolve_planted {pl : Pipeline} {path keys : List String} {s : String}
    {c : Context} (h : pl.ReadsThrough t c path)
    (hsource : c.source = Source.ofData (Value.plantedAt (.string s) keys))
    (hkeys : Text.splitString '.' (Text.join "." path) ≠ keys) :
    ∀ v, pl.resolve t c = .ok v → v = .null := by
  intro v hv
  have hread : c.source.get (Text.join "." path) =
      .ok ((Value.plantedAt (.string s) keys).lookupDotted (Text.join "." path)) := by
    rw [hsource]
    rfl
  have hleaf : ∀ segment, (Value.string s).lookup segment = .null := fun _ => rfl
  rcases Value.lookupPath_plantedAt_cases hleaf keys
    (Text.splitString '.' (Text.join "." path)) with hsame | hnull | ⟨entries, hobject⟩
  · exact absurd hsame hkeys
  · rw [Value.lookupDotted, hnull] at hread
    rw [h.absent hread] at hv
    exact (Except.ok.inj hv).symm
  · rw [Value.lookupDotted, hobject] at hread
    rw [h.unnamed _ hread Value.noConfusion fun _ => Value.noConfusion] at hv
    cases hv

/-- An indicator at the head leads elsewhere than the next one. -/
theorem splitString_join_indicator_ne {front rest : List String} (head name : String) :
    Text.splitString '.' (Text.join "." (name :: rest)) ≠
      Text.splitString '.' (Text.join "." (head :: (front ++ ("$" ++ name) :: rest))) := by
  intro heq
  have hlength := congrArg List.length heq
  rw [Text.length_splitString_join (List.cons_ne_nil _ _),
    Text.length_splitString_join (List.cons_ne_nil _ _)] at hlength
  simp only [List.flatMap_cons, List.flatMap_append, List.count_append, List.length_cons,
    List.length_append, String.toList_append] at hlength
  omega

/-- Where the head is an indicator, the names that it leads to are not read in nested objects that
hold the name of their own leaf. -/
theorem not_readsThrough_head (k : Clock) (hkind : t.kind = .dynamic) {name : String}
    {rest : List String} (hpath : t.path = ("$" ++ name) :: rest) :
    ¬ (ofList (Resolver.defaults k)).ReadsThrough t (Context.ofData (Value.plantedAt
      (.string (Text.join "." (name :: rest)))
      (Text.splitString '.' (Text.join "." (name :: rest))))) (name :: rest) := by
  intro h
  have hfield : t.fieldPath = rest := by rw [Token.fieldPath, hpath, List.drop_one, List.tail_cons]
  generalize htext : Text.join "." (name :: rest) = text at h
  have hread : (Context.ofData (Value.plantedAt (.string text)
      (Text.splitString '.' text))).source.get text = .ok (.string text) :=
    congrArg Except.ok (Value.lookupPath_plantedAt _ _)
  have hvalue := (h.named text (by rw [htext]; exact hread)).trans hread
  cases hany : rest.any Token.isIndicator with
  | false =>
    rw [resolve_unindicated k hkind (by rw [hfield, hany])] at hvalue
    cases hvalue
  | true =>
    obtain ⟨front, next, tail, hcut⟩ := Token.exists_cutAtIndicator hany
    have hnext := readsThrough_of_field k hkind (by rw [hfield]; exact hcut)
      (Context.ofData (Value.plantedAt (.string text) (Text.splitString '.' text)))
    have hkeys : Text.splitString '.' (Text.join "." (next :: tail)) ≠
        Text.splitString '.' text := by
      rw [← htext, hcut.path_eq]
      exact splitString_join_indicator_ne name next
    cases hnext.resolve_planted rfl hkeys _ hvalue

/-- A token with indicators reads through the first one of its path exactly when that is not the
head. Behind an indicator at the head the next one counts, and without another the token is
`null`. -/
theorem readsThrough_iff (k : Clock) (hkind : (Token.parse p).kind = .dynamic) :
    (∃ front name rest, CutAtIndicator (Token.parse p).path front name rest) ∧
      ∀ front name rest, CutAtIndicator (Token.parse p).path front name rest →
        (front ≠ [] → ∀ c, (ofList (Resolver.defaults k)).ReadsThrough (Token.parse p) c
          (name :: rest)) ∧
        ((∀ entries : Entries Value, (Value.object entries).Plain →
          (ofList (Resolver.defaults k)).ReadsThrough (Token.parse p)
            (Context.ofData (.object entries)) (name :: rest)) ↔ front ≠ []) ∧
        (front = [] → ∀ between next tail, CutAtIndicator rest between next tail →
          ∀ c, (ofList (Resolver.defaults k)).ReadsThrough (Token.parse p) c (next :: tail)) ∧
        (front = [] → rest.any Token.isIndicator = false →
          ∀ c, (ofList (Resolver.defaults k)).resolve (Token.parse p) c = .ok .null) := by
  refine ⟨Token.exists_cutAtIndicator (Token.any_isIndicator_of_dynamic hkind),
    fun front name rest hcut => ?_⟩
  have hbehind : front ≠ [] → ∀ c, (ofList (Resolver.defaults k)).ReadsThrough (Token.parse p) c
      (name :: rest) := by
    intro hfront
    obtain ⟨head, others, rfl⟩ := List.exists_cons_of_ne_nil hfront
    have hfield : CutAtIndicator (Token.parse p).fieldPath others name rest := by
      refine ⟨?_, fun segment hsegment => hcut.plain segment (List.mem_cons_of_mem _ hsegment)⟩
      rw [Token.fieldPath, hcut.path_eq, List.cons_append, List.drop_one, List.tail_cons]
    exact readsThrough_of_field k hkind hfield
  have hhead : front = [] → (Token.parse p).fieldPath = rest := by
    rintro rfl
    rw [Token.fieldPath, hcut.path_eq, List.nil_append, List.drop_one, List.tail_cons]
  refine ⟨hbehind, ⟨?_, fun hfront entries _ => hbehind hfront _⟩, ?_, ?_⟩
  · rintro h rfl
    have hkeys := Text.splitString_ne_nil '.' (Text.join "." (name :: rest))
    obtain ⟨entries, hobject⟩ := Value.exists_plantedAt_eq_object
      (.string (Text.join "." (name :: rest))) hkeys
    have hplain := Value.plain_plantedAt (.string (Text.join "." (name :: rest)))
      (Text.splitString '.' (Text.join "." (name :: rest)))
    have hnot := not_readsThrough_head k hkind hcut.path_eq
    rw [hobject] at hplain hnot
    exact hnot (h entries hplain)
  · intro hfront between next tail hnext c
    exact readsThrough_of_field k hkind (by rw [hhead hfront]; exact hnext) c
  · intro hfront hnone c
    exact resolve_unindicated k hkind (by rw [hhead hfront, hnone]) c

def headed : Value :=
  .object [("column", .object [("sorted", .string "title")]), ("title", .string "Report")]

theorem resolve_sortedColumn :
    (Token.parse "Table.$column.sorted").kind = .dynamic ∧
      CutAtIndicator (Token.parse "Table.$column.sorted").path ["Table"] "column" ["sorted"] ∧
      (ofList (Resolver.defaults wednesday)).resolve (Token.parse "Table.$column.sorted")
        (Context.ofData headed) = .ok (.string "Report") := by
  have hkind : (Token.parse "Table.$column.sorted").kind = .dynamic := by decide +kernel
  have hcut : CutAtIndicator (Token.parse "Table.$column.sorted").path ["Table"] "column"
      ["sorted"] := ⟨by decide +kernel, by decide⟩
  have hthrough := ((readsThrough_iff wednesday hkind).2 _ _ _ hcut).1 (by decide)
    (Context.ofData headed)
  exact ⟨hkind, hcut, hthrough.named "title" (by rfl)⟩

/-- The head leads to the name of a field, which is not read. -/
theorem not_readsThrough_column :
    (Token.parse "$column.sorted").kind = .dynamic ∧
      CutAtIndicator (Token.parse "$column.sorted").path [] "column" ["sorted"] ∧
      (Context.ofData headed).source.get "column.sorted" = .ok (.string "title") ∧
      (Context.ofData headed).source.get "title" = .ok (.string "Report") ∧
      (ofList (Resolver.defaults wednesday)).resolve (Token.parse "$column.sorted")
        (Context.ofData headed) = .ok .null ∧
      ¬ (ofList (Resolver.defaults wednesday)).ReadsThrough (Token.parse "$column.sorted")
        (Context.ofData headed) ["column", "sorted"] := by
  have hkind : (Token.parse "$column.sorted").kind = .dynamic := by decide +kernel
  have hcut : CutAtIndicator (Token.parse "$column.sorted").path [] "column" ["sorted"] :=
    ⟨by decide +kernel, by decide⟩
  have hread : (Context.ofData headed).source.get "column.sorted" = .ok (.string "title") := by rfl
  have htitle : (Context.ofData headed).source.get "title" = .ok (.string "Report") := by rfl
  have hresolve : (ofList (Resolver.defaults wednesday)).resolve (Token.parse "$column.sorted")
      (Context.ofData headed) = .ok .null :=
    resolve_unindicated wednesday hkind (by decide +kernel) _
  refine ⟨hkind, hcut, hread, htitle, hresolve, fun h => ?_⟩
  have hvalue := h.named "title" hread
  rw [hresolve, htitle] at hvalue
  cases hvalue

end Pipeline

end Placeholder
