import Mathlib
import Placeholder.Proofs.ClauseOutcome
import Placeholder.Proofs.WrittenTemplate

/-!
# The placeholders of declarations

Reading a clause asks of the expression of a declaration only that double braces enclose one
character or more and no closing brace. Parsing it as a template asks more: what the braces enclose
is not blank, and it has no further brace but one at its start. An expression that is read and does
not parse is reported when the clause is resolved, not when it is validated.
-/

namespace Placeholder

namespace Template

/-! ### Pairs and contents -/

/-- No pair is counted exactly where no two of the character stand side by side. -/
theorem countPairs_eq_zero_iff {b : Char} {cs : List Char} :
    countPairs b cs = 0 ↔ ¬ [b, b] <:+: cs := by
  induction cs with
  | nil => simp [countPairs]
  | cons c cs ih =>
    cases cs with
    | nil => simp [countPairs, List.infix_cons_iff, List.cons_prefix_cons]
    | cons d cs =>
      rw [countPairs, List.infix_cons_iff, List.cons_prefix_cons, List.cons_prefix_cons]
      by_cases hpair : c = b ∧ d = b
      · obtain ⟨rfl, rfl⟩ := hpair
        simp
      · have hpair' : ¬ (b = c ∧ b = d ∧ [] <+: cs) := fun h => hpair ⟨h.1.symm, h.2.1.symm⟩
        rw [if_neg hpair, ih, or_iff_right hpair']

theorem countPairs_cons_of_not_mem {b : Char} {cs : List Char} (h : b ∉ cs) (c : Char) :
    countPairs b (c :: cs) = 0 := by
  rw [countPairs_eq_zero_iff, List.infix_cons_iff, List.cons_prefix_cons]
  rintro (⟨-, hstart⟩ | hinside)
  · exact h (hstart.subset List.mem_cons_self)
  · exact h (hinside.subset List.mem_cons_self)

theorem countPairs_closing_embrace {content : List Char} (h : '\x7d' ∉ content) :
    countPairs '\x7d' (embrace content) = 1 := by
  rw [← List.append_nil (embrace content), embrace_append, countPairs_cons_of_ne (by decide),
    countPairs_cons_of_ne (by decide), countPairs_append_of_not_mem h, countPairs_pair]
  rfl

theorem contents_cons_of_none {c : Char} {cs : List Char} (h : takePlaceholder? (c :: cs) = none) :
    contents (c :: cs) = contents cs := by
  rw [contents, scan_cons_of_none h]
  rfl

theorem contents_embrace {content : List Char} (hne : content ≠ []) (hfree : BraceFree content)
    (rest : List Char) : contents (embrace content ++ rest) = content :: contents rest := by
  rw [contents, scan_embrace hne hfree]
  rfl

theorem exists_embrace_of_mem_contents {cs content : List Char} (h : content ∈ contents cs) :
    BraceFree content ∧ ∃ front rest, cs = front ++ (embrace content ++ rest) := by
  -- The scanner goes on behind one character or behind a whole placeholder.
  induction hn : cs.length using Nat.strong_induction_on generalizing cs with
  | _ n ih =>
    cases cs with
    | nil => cases h
    | cons c cs =>
      rw [List.length_cons] at hn
      cases htake : takePlaceholder? (c :: cs) with
      | none =>
        rw [contents_cons_of_none htake] at h
        obtain ⟨hfree, front, rest, hcs⟩ := ih cs.length (by omega) h rfl
        exact ⟨hfree, c :: front, rest, by rw [List.cons_append, ← hcs]⟩
      | some found =>
        obtain ⟨first, rest⟩ := found
        have hlen := length_lt_of_takePlaceholder? htake
        obtain ⟨hne, hfree, hcs⟩ := (takePlaceholder?_eq_some_iff _ _ _).mp htake
        rw [hcs, contents_embrace hne hfree] at h
        rcases List.mem_cons.mp h with rfl | h
        · exact ⟨hfree, [], rest, hcs⟩
        · obtain ⟨hfree', front, rest', hrest⟩ := ih rest.length (by omega) h rfl
          exact ⟨hfree', embrace first ++ front, rest', by rw [hcs, hrest, List.append_assoc]⟩

/-! ### Expressions that parse to a token -/

/-- A content that is not blank has no brace, or one at its start that is left outside. -/
def Readable (content : List Char) : Prop :=
  ∃ inner, BraceFree inner ∧ ¬ Text.Padding inner ∧ (content = inner ∨ content = '\x7b' :: inner)

theorem exists_wellFormed {inner : List Char} (hfree : BraceFree inner)
    (hblank : ¬ Text.Padding inner) :
    ∃ before after, (Part.placeholder before (Text.trim inner) after).WellFormed ∧
      before ++ Text.trim inner ++ after = inner := by
  obtain ⟨before, after, hbefore, hafter, hinner⟩ := Text.exists_padding_trim inner
  have hne : Text.trim inner ≠ [] := fun hnil => hblank (Text.trim_eq_nil_iff.mp hnil)
  have hfree' : BraceFree (Text.trim inner) := by
    rw [hinner] at hfree
    exact (braceFree_append.mp (braceFree_append.mp hfree).1).2
  exact ⟨before, after, ⟨hbefore, hafter, hne, Text.trimmed_trim inner, hfree'⟩, hinner.symm⟩

theorem parse_embrace {inner : List Char} (hfree : BraceFree inner)
    (hblank : ¬ Text.Padding inner) :
    parse (String.ofList (embrace inner)) = .ok [Token.classify (Text.trim inner)] := by
  obtain ⟨before, after, hpart, hinner⟩ := exists_wellFormed hfree hblank
  have hparse := parse_written [.placeholder before (Text.trim inner) after]
    fun part h => List.mem_singleton.mp h ▸ hpart
  rwa [written_cons, show written [] = [] from rfl, List.append_nil, Part.text, hinner] at hparse

/-- The first of three opening braces opens nothing. -/
theorem check_brace_embrace {inner : List Char} (hfree : BraceFree inner)
    (hblank : ¬ Text.Padding inner) :
    check (String.ofList ('\x7b' :: embrace inner)) = .ok () := by
  have hopen : '\x7b' ∉ inner := hfree.not_mem_open
  have hclose : '\x7d' ∉ inner := hfree.not_mem_close
  have hopens : countPairs '\x7b' ('\x7b' :: embrace inner) = 1 := by
    change countPairs '\x7b' ('\x7b' :: '\x7b' :: '\x7b' :: (inner ++ ['\x7d', '\x7d'])) = 1
    rw [countPairs_pair, countPairs_cons_of_not_mem (by simp [hopen])]
  have hcloses : countPairs '\x7d' ('\x7b' :: embrace inner) = 1 := by
    rw [countPairs_cons_of_ne (by decide), countPairs_closing_embrace hclose]
  have hnested : opensNested ('\x7b' :: embrace inner) = false := by
    have htake := takeWhile_append_close (show '\x7d' ∉ '\x7b' :: inner by simp [hclose]) ['\x7d']
    change decide (0 < countPairs '\x7b'
      (('\x7b' :: inner ++ ['\x7d', '\x7d']).takeWhile (· != '\x7d'))) = false
    rw [htake, countPairs_cons_of_not_mem hopen]
    rfl
  obtain ⟨before, after, hpart, hinner⟩ := exists_wellFormed hfree hblank
  have hblankInside := opensBlank_embrace hpart []
  have hnestedInside := opensNested_embrace hfree []
  rw [hinner] at hblankInside
  have hneverBlank : NeverFrom opensBlank ('\x7b' :: (embrace inner ++ [])) :=
    neverFrom_cons rfl
      (needsBraces_opensBlank.neverFrom_embrace hfree hblankInside (neverFrom_nil _))
  have hneverNested : NeverFrom opensNested ('\x7b' :: (embrace inner ++ [])) :=
    neverFrom_cons (by rwa [List.append_nil])
      (needsBraces_opensNested.neverFrom_embrace hfree hnestedInside (neverFrom_nil _))
  rw [List.append_nil] at hneverBlank hneverNested
  simp only [check, String.toList_ofList, hopens, hcloses, ne_eq, not_true_eq_false, if_false,
    hneverBlank 0, hneverNested 0]

theorem parse_brace_embrace {inner : List Char} (hfree : BraceFree inner)
    (hblank : ¬ Text.Padding inner) :
    parse (String.ofList ('\x7b' :: embrace inner)) = .ok [Token.classify (Text.trim inner)] := by
  have hne : inner ≠ [] := fun hnil => hblank (hnil ▸ Text.padding_nil)
  have htrim : Text.trim inner ≠ [] := fun hnil => hblank (Text.trim_eq_nil_iff.mp hnil)
  have hcontents : contents ('\x7b' :: (embrace inner ++ [])) = [inner] := by
    rw [contents_cons_of_none rfl, contents_embrace hne hfree]
    rfl
  rw [List.append_nil] at hcontents
  rw [parse, check_brace_embrace hfree hblank, String.toList_ofList, hcontents, List.map_singleton,
    List.filter_cons_of_pos (by simpa using htrim)]
  rfl

theorem countPairs_eq_of_check {template : String} (h : check template = .ok ()) :
    countPairs '\x7b' template.toList = countPairs '\x7d' template.toList := by
  by_contra hne
  simp only [check, ne_eq, hne, not_false_eq_true, if_true] at h
  cases h

theorem check_eq_error {template : String} {e : GrammarError} (h : check template = .error e) :
    ∃ position, e = .unclosedPlaceholder template position ∨
      e = .emptyPlaceholder template position ∨ e = .nestedPlaceholder template position := by
  simp only [check] at h
  split at h
  · cases h
    exact ⟨_, .inl rfl⟩
  · split at h
    · cases h
      exact ⟨_, .inr (.inl rfl)⟩
    · split at h
      · cases h
        exact ⟨_, .inr (.inr rfl)⟩
      · cases h

theorem parse_of_check {template : String} (h : check template = .ok ()) :
    parse template = .ok ((((contents template.toList).map Text.trim).filter
      fun content => !content.isEmpty).map Token.classify) := by
  rw [parse, h]
  rfl

theorem check_of_parse {template : String} {e : GrammarError} (h : parse template = .error e) :
    check template = .error e := by
  cases hcheck : check template with
  | ok =>
    rw [parse_of_check hcheck] at h
    cases h
  | error e' =>
    rw [parse, hcheck] at h
    cases h
    rfl

theorem exists_mem_contents_of_parse {template : String} {t : Token} {others : List Token}
    (h : parse template = .ok (t :: others)) :
    check template = .ok () ∧
      ∃ content ∈ contents template.toList, ¬ Text.Padding content := by
  cases hcheck : check template with
  | error e =>
    rw [parse, hcheck] at h
    cases h
  | ok =>
    rw [parse_of_check hcheck] at h
    obtain ⟨first, rest, hcontents, -, -⟩ := List.map_eq_cons_iff.mp (Except.ok.inj h)
    have hfirst : first ∈ ((contents template.toList).map Text.trim).filter
        fun content => !content.isEmpty := hcontents ▸ List.mem_cons_self
    obtain ⟨hfirst, hne⟩ := List.mem_filter.mp hfirst
    obtain ⟨content, hcontent, rfl⟩ := List.mem_map.mp hfirst
    refine ⟨rfl, content, hcontent, fun hblank => ?_⟩
    rw [Text.trim_eq_nil_iff.mpr hblank] at hne
    cases hne

/-- A token comes of a content, and a pair of braces inside the braces would be one too many. -/
theorem exists_parse_embrace_iff {content : List Char} (hclose : '\x7d' ∉ content) :
    (∃ t others, parse (String.ofList (embrace content)) = .ok (t :: others)) ↔
      Readable content := by
  constructor
  · rintro ⟨t, others, hparse⟩
    obtain ⟨hcheck, inner, hinner, hblank⟩ := exists_mem_contents_of_parse hparse
    rw [String.toList_ofList] at hinner
    obtain ⟨hfree, front, rest, hcs⟩ := exists_embrace_of_mem_contents hinner
    have hclose' : '\x7d' ∉ inner := hfree.not_mem_close
    have hbalance := countPairs_eq_of_check hcheck
    rw [String.toList_ofList, countPairs_closing_embrace hclose] at hbalance
    change countPairs '\x7b' ('\x7b' :: '\x7b' :: (content ++ ['\x7d', '\x7d'])) = 1 at hbalance
    rw [countPairs_pair] at hbalance
    have hinside : ¬ ['\x7b', '\x7b'] <:+: content ++ ['\x7d', '\x7d'] :=
      countPairs_eq_zero_iff.mp (by omega)
    refine ⟨inner, hfree, hblank, ?_⟩
    rw [embrace_append] at hcs
    -- The pair of braces in front of the content is the first one, or begins one character later.
    match front with
    | [] =>
      have htail : content ++ ['\x7d', '\x7d'] = inner ++ '\x7d' :: '\x7d' :: rest :=
        (List.cons.inj (List.cons.inj hcs).2).2
      exact .inl (eq_of_append_close hclose hclose' htail)
    | [c] =>
      have htail : content ++ ['\x7d', '\x7d'] = '\x7b' :: inner ++ '\x7d' :: '\x7d' :: rest :=
        (List.cons.inj (List.cons.inj hcs).2).2
      exact .inr (eq_of_append_close hclose (by simp [hclose']) htail)
    | c :: d :: front =>
      have htail : content ++ ['\x7d', '\x7d'] =
          front ++ ['\x7b', '\x7b'] ++ (inner ++ '\x7d' :: '\x7d' :: rest) := by
        rw [List.append_assoc]
        exact (List.cons.inj (List.cons.inj hcs).2).2
      exact absurd ⟨front, _, htail.symm⟩ hinside
  · rintro ⟨inner, hfree, hblank, rfl | rfl⟩
    · exact ⟨_, _, parse_embrace hfree hblank⟩
    · exact ⟨_, _, parse_brace_embrace hfree hblank⟩

end Template

namespace Failure

/-- A failure is about the form of a clause or of a placeholder, not about a value. -/
def concernsForm : Failure → Bool
  | clause _ => true
  | grammar (.unclosedPlaceholder _ _) => true
  | grammar (.emptyPlaceholder _ _) => true
  | grammar (.nestedPlaceholder _ _) => true
  | resolution (.variableNotResolved _ _ (some .noPlaceholder)) => true
  | _ => false

theorem concernsForm_of_parse {template : String} {e : GrammarError}
    (h : Template.parse template = .error e) : (grammar e).concernsForm = true := by
  obtain ⟨position, rfl | rfl | rfl⟩ := Template.check_eq_error (Template.check_of_parse h) <;> rfl

end Failure

namespace Clause

open Template

/-! ### Expressions as a clause reads them -/

/-- The expression of a declaration has its only closing braces at its end. -/
def Declaration.Enclosed (d : Declaration) : Prop :=
  ∃ content, '\x7d' ∉ content ∧ d.expression = String.ofList (embrace content)

theorem exists_embrace_of_takeExpression? {cs expression rest : List Char}
    (h : takeExpression? cs = some (expression, rest)) :
    ∃ content, '\x7d' ∉ content ∧ expression = embrace content := by
  obtain ⟨inner, -, h⟩ := Option.bind_eq_some_iff.mp h
  obtain ⟨⟨content, tail⟩, hcontent, h⟩ := Option.bind_eq_some_iff.mp h
  obtain ⟨after, -, h⟩ := Option.bind_eq_some_iff.mp h
  cases h
  obtain ⟨-, hrun, -⟩ := takeRun?_eq_some hcontent
  exact ⟨content, fun hmem => absurd (hrun _ hmem) (by decide), rfl⟩

theorem enclosed_of_takeDeclaration? {cs rest : List Char} {d : Declaration}
    (h : takeDeclaration? cs = some (d, rest)) : d.Enclosed := by
  obtain ⟨⟨name, tail⟩, -, h⟩ := Option.bind_eq_some_iff.mp h
  obtain ⟨arrow, -, h⟩ := Option.bind_eq_some_iff.mp h
  obtain ⟨⟨expression, end'⟩, hexpression, h⟩ := Option.bind_eq_some_iff.mp h
  cases h
  obtain ⟨content, hclose, rfl⟩ := exists_embrace_of_takeExpression? hexpression
  exact ⟨content, hclose, rfl⟩

theorem enclosed_of_read {template : String} {clause : Clause} (h : read template = .ok clause)
    {d : Declaration} (hd : d ∈ clause.declarations) : d.Enclosed := by
  obtain ⟨-, block, hblock⟩ := exists_readDeclarations h
  rw [hblock] at hd
  obtain ⟨front, rest, htake⟩ := exists_takeDeclaration?_of_mem hd
  exact enclosed_of_takeDeclaration? htake

/-! ### Failures for the form -/

namespace Declaration

variable {p : Pipeline} {c : Context} {d : Declaration}

/-- The expression of a declaration is a placeholder, perhaps behind a third opening brace. -/
def HasPlaceholder (d : Declaration) : Prop :=
  ∃ content, d.expression = String.ofList (embrace content) ∧ Readable content

theorem Enclosed.hasPlaceholder_iff (h : d.Enclosed) :
    d.HasPlaceholder ↔ ∃ t others, parse d.expression = .ok (t :: others) := by
  obtain ⟨content, hclose, hd⟩ := h
  rw [hd, exists_parse_embrace_iff hclose]
  constructor
  · rintro ⟨content', hd', hreadable⟩
    have hembrace := String.ofList_injective (hd'.symm.trans hd)
    have hcontent := List.append_cancel_right (List.cons.inj (List.cons.inj hembrace).2).2
    exact hcontent ▸ hreadable
  · intro hreadable
    exact ⟨content, hd, hreadable⟩

theorem Yields.unique {outcome outcome' : Except Failure Value} (h : d.Yields p c outcome)
    (h' : d.Yields p c outcome') : outcome = outcome' := by
  obtain ⟨t, ht, rfl⟩ := h.token?
  obtain ⟨t', ht', rfl⟩ := h'.token?
  rw [Option.some.inj (ht.symm.trans ht')]

theorem Enclosed.of_yields {outcome : Except Failure Value} (henclosed : d.Enclosed)
    (h : d.Yields p c outcome) : d.HasPlaceholder := by
  obtain ⟨t, others, hparse, -⟩ := h
  exact henclosed.hasPlaceholder_iff.mpr ⟨t, others, hparse⟩

/-- A failing declaration fails for its form where it has no placeholder, and else where the
pipeline fails so on its token. -/
theorem Fails.concernsForm_iff {e : Failure} (henclosed : d.Enclosed) (h : d.Fails p c e) :
    e.concernsForm = false ↔
      d.HasPlaceholder ∧ ∀ e, d.Yields p c (.error e) → e.concernsForm = false := by
  -- In the first two ways there is no token to ask the pipeline about; in the others there is one.
  cases h with
  | malformed hparse =>
    refine iff_of_false (by simp [Failure.concernsForm_of_parse hparse]) fun hd => ?_
    obtain ⟨t, others, hok⟩ := henclosed.hasPlaceholder_iff.mp hd.1
    exact nomatch hparse.symm.trans hok
  | noToken hparse =>
    refine iff_of_false (by simp [notResolved, Failure.concernsForm]) fun hd => ?_
    obtain ⟨t, others, hok⟩ := henclosed.hasPlaceholder_iff.mp hd.1
    exact nomatch hparse.symm.trans hok
  | unresolvable hyields =>
    refine iff_of_true rfl ⟨henclosed.of_yields hyields, fun e he => ?_⟩
    cases hyields.unique he
    rfl
  | unresolved hyields =>
    refine ⟨fun hform => ⟨henclosed.of_yields hyields, fun e' he => ?_⟩, fun hd => hd.2 _ hyields⟩
    cases hyields.unique he
    exact hform
  | null hyields =>
    exact iff_of_true rfl
      ⟨henclosed.of_yields hyields, fun e he => nomatch hyields.unique he⟩
  | unmet hrefuses =>
    exact iff_of_true rfl
      ⟨henclosed.of_yields hrefuses.yields, fun e he => nomatch hrefuses.yields.unique he⟩

end Declaration

theorem Precedes.mem {p : Pipeline} {c : Context} {ds : List Declaration} {d : Declaration}
    (h : Precedes p c ds d) : d ∈ ds := by
  obtain ⟨before, after, rfl, -⟩ := h
  simp

theorem exists_read_of_validate {template : String} (h : validate template = []) :
    ∃ clause, read template = .ok clause := by
  unfold validate at h
  split at h
  · cases h
  · exact ⟨_, by assumption⟩

theorem resolve_eq_error_iff {p : Pipeline} {template : String} {c : Context} {e : Failure} :
    resolve p template c = .error e ↔ resolveDetailed p template c = .error e := by
  unfold resolve
  cases resolveDetailed p template c <;> simp [Except.map]

/-- A template that validates is read. Resolving it fails for the form of the clause or of a
placeholder exactly where a declaration is reached that has no placeholder, or on whose token the
pipeline itself fails so. -/
theorem resolve_of_validate {template : String} (h : validate template = []) (p : Pipeline)
    (c : Context) :
    ∃ clause, read template = .ok clause ∧
      ((∀ e, resolve p template c = .error e → e.concernsForm = false) ↔
        ∀ d, Precedes p c clause.declarations d →
          d.HasPlaceholder ∧ ∀ e, d.Yields p c (.error e) → e.concernsForm = false) := by
  obtain ⟨clause, hread⟩ := exists_read_of_validate h
  refine ⟨clause, hread, ?_⟩
  simp only [resolve_eq_error_iff, resolveDetailed_eq_error_iff hread]
  constructor
  · intro hform d hd
    have henclosed := enclosed_of_read hread hd.mem
    rcases d.hasValue_or_fails p c with ⟨v, hv⟩ | ⟨e, he⟩
    · exact ⟨henclosed.of_yields hv.yields, fun e he => nomatch hv.yields.unique he⟩
    · exact (he.concernsForm_iff henclosed).mp (hform e ⟨d, hd, he⟩)
  · rintro hsound e ⟨d, hd, he⟩
    exact (he.concernsForm_iff (enclosed_of_read hread hd.mem)).mpr (hsound d hd)

def greeting : String :=
  "USE \x7bwho\x7d => \x7b\x7b\x7b$who\x7d\x7d && Dear \x7bwho\x7d"

theorem read_greeting :
    read greeting = .ok ⟨[⟨"who", "\x7b\x7b\x7b$who\x7d\x7d", none⟩], "Dear \x7bwho\x7d",
      greeting⟩ := by
  decide

/-- The third brace of the greeting is no fault of its form. -/
theorem resolve_greeting :
    validate greeting = [] ∧
      ∀ c e, resolve clerk greeting c = .error e → e.concernsForm = false := by
  have hvalid : validate greeting = [] := by decide
  refine ⟨hvalid, fun c => ?_⟩
  obtain ⟨clause, hread, hform⟩ := resolve_of_validate hvalid clerk c
  rw [read_greeting] at hread
  cases hread
  refine hform.mpr fun d hd => ?_
  rw [List.mem_singleton.mp hd.mem]
  refine ⟨⟨"\x7b$who".toList, rfl, "$who".toList, by decide, by decide, .inr rfl⟩, ?_⟩
  rintro e ⟨t, others, hparse, hresolve⟩
  cases hparse
  cases hresolve

theorem resolve_of_fails {template statement : String} {d : Declaration} {ds : List Declaration}
    {p : Pipeline} {c : Context} {e : Failure}
    (hread : read template = .ok ⟨d :: ds, statement, template⟩) (h : d.Fails p c e) :
    resolve p template c = .error e :=
  resolve_eq_error_iff.mpr
    ((resolveDetailed_eq_error_iff hread).mpr ⟨d, ⟨[], ds, rfl, nofun⟩, h⟩)

/-- A clause that binds a name to what double braces enclose. -/
def binding (content : String) : String :=
  "USE \x7ba\x7d => \x7b\x7b" ++ content ++ "\x7d\x7d && x"

def boundTo (content : String) : Declaration :=
  ⟨"a", "\x7b\x7b" ++ content ++ "\x7d\x7d", none⟩

/-- Blank braces, braces at the start of a content and a brace inside one are no faults for
validation, and each fails when the clause is resolved, over every pipeline and every context. -/
theorem resolve_binding_malformed :
    (validate (binding " ") = [] ∧ ∀ p c,
      resolve p (binding " ") c =
        .error (.grammar (.emptyPlaceholder (boundTo " ").expression 0))) ∧
    (validate (binding "\x7b\x7bb") = [] ∧ ∀ p c,
      resolve p (binding "\x7b\x7bb") c =
        .error (.grammar (.unclosedPlaceholder (boundTo "\x7b\x7bb").expression 2))) ∧
    (validate (binding "b\x7bc") = [] ∧ ∀ p c,
      resolve p (binding "b\x7bc") c = .error (notResolved (boundTo "b\x7bc") .noPlaceholder)) := by
  have hblank : read (binding " ") = .ok ⟨[boundTo " "], "x", binding " "⟩ := by decide
  have hdouble : read (binding "\x7b\x7bb") =
      .ok ⟨[boundTo "\x7b\x7bb"], "x", binding "\x7b\x7bb"⟩ := by decide
  have hinside : read (binding "b\x7bc") =
      .ok ⟨[boundTo "b\x7bc"], "x", binding "b\x7bc"⟩ := by decide
  refine ⟨⟨by decide, fun p c => ?_⟩, ⟨by decide, fun p c => ?_⟩, ⟨by decide, fun p c => ?_⟩⟩
  · exact resolve_of_fails hblank (.malformed rfl)
  · exact resolve_of_fails hdouble (.malformed rfl)
  · exact resolve_of_fails hinside (.noToken rfl)

end Clause

end Placeholder
