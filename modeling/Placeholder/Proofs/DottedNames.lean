import Placeholder.Proofs.ArgumentPaths

/-!
# Dotted names

Identifiers with dots between them are a path with these identifiers as its segments, whatever white
space stands around the dots. None of the checks in front of that for paths takes such a text, since
it has none of the characters that they look for. The kind of the path is decided by the shape of
the first name and by the number of names.
-/

namespace Placeholder

open Temporal (IsIdentifier)

theorem Temporal.IsIdentifier.visible {name : String} (h : IsIdentifier name) :
    Text.Visible name.toList := by
  have hparts := h.isNamePart
  obtain ⟨c, cs, hlist, -, -⟩ := h
  rw [hlist] at hparts ⊢
  exact ⟨List.cons_ne_nil c cs, fun d hd =>
    Temporal.Lexeme.not_blank_of_isNamePart (hparts d hd)⟩

/-- Names with dots between them; white space may stand around the dots. -/
inductive Dotted : List String → List Char → Prop
  | last (name : String) : Dotted [name] name.toList
  | dot (name : String) {names : List String} {before after text : List Char}
      (hbefore : Text.Padding before) (hafter : Text.Padding after) (rest : Dotted names text) :
      Dotted (name :: names) (name.toList ++ before ++ '.' :: (after ++ text))

namespace Dotted

variable {first : String} {names rest : List String} {text : List Char}

/-! ### The text -/

theorem mem_text (h : Dotted names text) {c : Char} (hc : c ∈ text) :
    c = '.' ∨ Text.isBlank c = true ∨ ∃ name ∈ names, c ∈ name.toList := by
  induction h with
  | last name => exact Or.inr (Or.inr ⟨name, List.mem_cons_self, hc⟩)
  | dot name hbefore hafter _ ih =>
    simp only [List.mem_append, List.mem_cons] at hc
    rcases hc with (hc | hc) | rfl | hc | hc
    · exact Or.inr (Or.inr ⟨name, List.mem_cons_self, hc⟩)
    · exact Or.inr (Or.inl (hbefore c hc))
    · exact Or.inl rfl
    · exact Or.inr (Or.inl (hafter c hc))
    · rcases ih hc with hdot | hblank | ⟨other, hother, hmem⟩
      · exact Or.inl hdot
      · exact Or.inr (Or.inl hblank)
      · exact Or.inr (Or.inr ⟨other, List.mem_cons_of_mem name hother, hmem⟩)

theorem not_mem (h : Dotted names text) (hnames : ∀ name ∈ names, IsIdentifier name) {c : Char}
    (hc : c ≠ '.' ∧ Text.isBlank c = false ∧ Text.isNamePart c = false) : c ∉ text := by
  intro hmem
  rcases h.mem_text hmem with hdot | hblank | ⟨name, hname, hin⟩
  · exact hc.1 hdot
  · rw [hc.2.1] at hblank
    contradiction
  · exact (hnames name hname).not_mem hc.2.2 hin

/-- The first name stands in front, and no character of a name behind it. -/
theorem exists_behind (h : Dotted (first :: rest) text) :
    ∃ behind, text = first.toList ++ behind ∧
      ∀ c ∈ behind.head?, Text.isNamePart c = false := by
  cases h with
  | last => exact ⟨[], (List.append_nil _).symm, by simp⟩
  | @dot _ _ before after text hbefore hafter _ =>
    refine ⟨before ++ '.' :: (after ++ text), List.append_assoc _ _ _, fun c hc => ?_⟩
    cases before with
    | nil =>
      rw [← Option.some.inj hc]
      decide
    | cons d before =>
      rw [← Option.some.inj hc]
      exact Temporal.Lexeme.isNamePart_of_blank (hbefore d List.mem_cons_self)

theorem endsVisible (h : Dotted names text) (hnames : ∀ name ∈ names, IsIdentifier name) :
    Text.EndsVisible text := by
  induction h with
  | last name => exact (hnames name List.mem_cons_self).visible.endsVisible
  | @dot name names before after text _ _ _ ih =>
    have hends := ih (List.forall_mem_cons.mp hnames).2
    have hsplit : name.toList ++ before ++ '.' :: (after ++ text) =
        (name.toList ++ before ++ '.' :: after) ++ text := by simp
    rw [hsplit]
    exact hends.append_left _

theorem trimmed (h : Dotted (first :: rest) text)
    (hnames : ∀ name ∈ first :: rest, IsIdentifier name) : Text.Trimmed text := by
  have hends := h.endsVisible hnames
  obtain ⟨behind, rfl, -⟩ := h.exists_behind
  obtain ⟨c, cs, hlist, hc, -⟩ := hnames first List.mem_cons_self
  rw [hlist] at hends ⊢
  exact hends.trimmed_cons
    (Temporal.Lexeme.not_blank_of_isNamePart (Temporal.Lexeme.isNamePart_of_isNameStart hc))

/-! ### Its segments -/

/-- A name with white space around it is a piece of its own, and trimmed it is the name. -/
theorem trim_name {name : String} (hname : IsIdentifier name) {front back : List Char}
    (hfront : Text.Padding front) (hback : Text.Padding back) :
    '.' ∉ front ++ name.toList ++ back ∧
      String.ofList (Text.trim (front ++ name.toList ++ back)) = name := by
  have hundotted : ∀ {cs : List Char}, Text.Padding cs → '.' ∉ cs := fun hcs hmem =>
    absurd (hcs '.' hmem) (by decide)
  refine ⟨?_, ?_⟩
  · simp only [List.mem_append, not_or]
    exact ⟨⟨hundotted hfront, hname.not_mem (by decide)⟩, hundotted hback⟩
  · rw [Text.trim_padded hfront hback, show Text.trim name.toList = name.toList from
      hname.visible.trimmed, String.ofList_toList]

/-- The induction is on the names with the white space in front of each of them. -/
theorem splitOn_padded (h : Dotted names text) (hnames : ∀ name ∈ names, IsIdentifier name)
    {front : List Char} (hfront : Text.Padding front) :
    (Text.splitOn '.' (front ++ text)).map (fun piece => String.ofList (Text.trim piece)) =
      names := by
  induction h generalizing front with
  | last name =>
    obtain ⟨hundotted, htrim⟩ :=
      trim_name (hnames name List.mem_cons_self) hfront Text.padding_nil
    rw [List.append_nil] at hundotted htrim
    rw [Text.splitOn_of_not_mem hundotted, List.map_singleton, htrim]
  | @dot name names before after text hbefore hafter _ ih =>
    obtain ⟨hname, hothers⟩ := List.forall_mem_cons.mp hnames
    obtain ⟨hundotted, htrim⟩ := trim_name hname hfront hbefore
    have hsplit : front ++ (name.toList ++ before ++ '.' :: (after ++ text)) =
        (front ++ name.toList ++ before) ++ '.' :: (after ++ text) := by simp
    rw [hsplit, Text.splitOn_append hundotted, List.map_cons, htrim, ih hothers hafter]

theorem segments_eq (h : Dotted names text) (hnames : ∀ name ∈ names, IsIdentifier name) :
    Path.segments text = names := by
  have hbracket : '[' ∉ text := h.not_mem hnames (by decide)
  rw [Path.segments, Path.pieces_eq_splitOn hbracket]
  exact h.splitOn_padded hnames Text.padding_nil

end Dotted

/-! ### The kind of the path -/

/-- A capital letter, followed by letters and digits. -/
def IsPascalName (name : String) : Prop :=
  ∃ c cs, name.toList = c :: cs ∧ c.isUpper = true ∧ ∀ d ∈ cs, d.isAlphanum = true

/-- A small letter, followed by small letters, digits and underscores. -/
def IsSnakeName (name : String) : Prop :=
  ∃ c cs, name.toList = c :: cs ∧ c.isLower = true ∧
    ∀ d ∈ cs, d.isLower = true ∨ d.isDigit = true ∨ d = '_'

namespace Token

theorem isPascalCase_iff (name : String) :
    isPascalCase name.toList = true ↔ IsPascalName name := by
  unfold IsPascalName
  cases name.toList with
  | nil => simp [isPascalCase]
  | cons c cs => simp [isPascalCase]

theorem isSnakeCase_iff (name : String) :
    isSnakeCase name.toList = true ↔ IsSnakeName name := by
  unfold IsSnakeName
  cases name.toList with
  | nil => simp [isSnakeCase]
  | cons c cs => simp [isSnakeCase, or_assoc]

/-- No name is of both shapes. -/
theorem not_isPascalName_of_isSnakeName {name : String} (h : IsSnakeName name) :
    ¬ IsPascalName name := by
  rintro ⟨d, ds, hlist, hupper, -⟩
  obtain ⟨c, cs, hsame, hlower, -⟩ := h
  rw [hlist, List.cons.injEq] at hsame
  rw [← hsame.1] at hlower
  exact Char.not_isUpper_of_isLower hlower hupper

/-- An identifier selects nothing in a collection unless it is one of two words. -/
theorem not_isSelector {name : String} (h : IsIdentifier name)
    (hwords : name ≠ "first" ∧ name ≠ "last") : isSelector name = false := by
  have htrimmed := h.visible.trimmed
  have hstar : name ≠ "*" := by
    rintro rfl
    exact h.not_mem (c := '*') (by decide) (by decide)
  obtain ⟨c, cs, hlist, hc, -⟩ := h
  rw [hlist] at htrimmed
  have hnumeral : Number.isNumeral name.toList = false := by
    rw [hlist]
    exact isNumeral_of_isNameStart hc htrimmed
  simp [isSelector, hnumeral, hstar, hwords]

theorem not_isIndicator {name : String} (h : IsIdentifier name) : isIndicator name = false := by
  obtain ⟨c, cs, hlist, hc, -⟩ := h
  have hdollar : c ≠ '$' := by
    rintro rfl
    exact absurd hc (by decide)
  simp [isIndicator, hlist, hdollar]

variable {first : String} {rest : List String}

theorem pathKind_names
    (hnames : ∀ name ∈ first :: rest, IsIdentifier name ∧ name ≠ "first" ∧ name ≠ "last") :
    (IsSnakeName first → pathKind (first :: rest) = .table) ∧
      (IsPascalName first →
        pathKind (first :: rest) = if 2 < (first :: rest).length then .relation else .model) := by
  have hindicator : (first :: rest).any isIndicator = false := by
    rw [List.any_eq_false]
    exact fun name hname => by simp [not_isIndicator (hnames name hname).1]
  have hselector : (first :: rest).any isSelector = false := by
    rw [List.any_eq_false]
    exact fun name hname => by simp [not_isSelector (hnames name hname).1 (hnames name hname).2]
  have hpascal := isPascalCase_iff first
  have hsnake := isSnakeCase_iff first
  refine ⟨fun h => ?_, fun h => ?_⟩
  · have hnot : isPascalCase first.toList = false := by
      rw [Bool.eq_false_iff, Ne, hpascal]
      exact not_isPascalName_of_isSnakeName h
    simp only [pathKind, hindicator, hselector, List.headD_cons, hnot, hsnake.mpr h,
      Bool.false_eq_true, if_false, if_true]
  · simp only [pathKind, hindicator, hselector, List.headD_cons, hpascal.mpr h,
      Bool.false_eq_true, if_false, if_true]

/-! ### No other check takes the text -/

theorem isArithmetic_of_not_mem {cs : List Char} (h : ∀ op ∈ ['+', '-', '*', '/'], op ∉ cs) :
    isArithmetic cs = false := by
  induction cs with
  | nil => rfl
  | cons a cs ih =>
    have hrest : isArithmetic cs = false :=
      ih fun op hop hmem => h op hop (List.mem_cons_of_mem a hmem)
    match cs, hrest with
    | [], _ => rfl
    | [_], _ => rfl
    | op :: b :: cs, hrest =>
      have hop : op ∉ ['+', '-', '*', '/'] := fun hop =>
        h op hop (List.mem_cons_of_mem a List.mem_cons_self)
      simp only [List.mem_cons, List.not_mem_nil, or_false, not_or] at hop
      simp [isArithmetic, hop, hrest]

variable {text : List Char}

theorem isTemporal_dotted (h : Dotted (first :: rest) text)
    (hnames : ∀ name ∈ first :: rest, IsIdentifier name) (hnow : ¬ "NOW".toList <+: first.toList)
    (htoday : ¬ "TODAY".toList <+: first.toList) : isTemporal text = false := by
  have hcolon : ':' ∉ text := h.not_mem hnames (by decide)
  obtain ⟨behind, rfl, hbehind⟩ := h.exists_behind
  -- What follows the first name is no part of a word that is made of letters.
  have hword : ∀ {word : List Char}, (∀ c ∈ word, Text.isNamePart c = true) →
      ¬ word <+: first.toList → Text.startsWith word (first.toList ++ behind) = false := by
    intro word hletters hfirst
    rw [Bool.eq_false_iff, Ne, Text.startsWith_iff]
    cases behind with
    | nil => rwa [List.append_nil]
    | cons c behind =>
      have hc : Text.isNamePart c = false := hbehind c rfl
      rw [Text.prefix_append_cons_iff fun hmem => by simp [hletters c hmem] at hc]
      exact hfirst
  have htemporal : Text.startsWith "TEMPORAL:".toList (first.toList ++ behind) = false := by
    rw [Bool.eq_false_iff, Ne, Text.startsWith_iff]
    exact fun hbegins => hcolon (hbegins.subset (by decide))
  rw [isTemporal, htemporal, hword (by simp [Text.isNamePart]) hnow,
    hword (by simp [Text.isNamePart]) htoday]
  rfl

theorem isCall_dotted (h : Dotted (first :: rest) text)
    (hnames : ∀ name ∈ first :: rest, IsIdentifier name) : isCall text = false := by
  have hparen : '(' ∉ text := h.not_mem hnames (by decide)
  obtain ⟨behind, rfl, hbehind⟩ := h.exists_behind
  have htake : Text.takeName (first.toList ++ behind) = (first.toList, behind) := by
    obtain ⟨c, cs, hlist, hc, hcs⟩ := hnames first List.mem_cons_self
    rw [hlist]
    exact Temporal.Lexeme.takeName_append hc hcs hbehind
  have hopen : Text.startsWith ['('] (Text.trimStart Text.isBlank behind) = false := by
    rw [Bool.eq_false_iff, Ne, Text.startsWith_iff]
    intro hbegins
    have hmem : '(' ∈ Text.trimStart Text.isBlank behind := hbegins.subset List.mem_cons_self
    exact hparen (List.mem_append_right _ ((List.dropWhile_suffix _).subset hmem))
  rw [isCall, htake]
  dsimp only
  rw [hopen, Bool.and_false]

theorem classifyTrimmed_dotted (h : Dotted (first :: rest) text)
    (hnames : ∀ name ∈ first :: rest, IsIdentifier name) (hnow : ¬ "NOW".toList <+: first.toList)
    (htoday : ¬ "TODAY".toList <+: first.toList) : classifyTrimmed text = ofPath text := by
  have hmark : Text.cut? "??".toList text = none := by
    rw [Text.cut?_eq_none_iff]
    exact fun hin => h.not_mem hnames (by decide) (hin.subset (by decide : '?' ∈ "??".toList))
  have hvariable : Text.startsWith ['$'] text = false := by
    rw [Bool.eq_false_iff, Ne, Text.startsWith_iff]
    exact fun hbegins => h.not_mem hnames (by decide) (hbegins.subset List.mem_cons_self)
  have hoperator : ∀ op ∈ ['+', '-', '*', '/'],
      op ≠ '.' ∧ Text.isBlank op = false ∧ Text.isNamePart op = false := by
    simp [Text.isBlank, Text.isNamePart]
  have harithmetic : isArithmetic text = false :=
    isArithmetic_of_not_mem fun op hop => h.not_mem hnames (hoperator op hop)
  rw [classifyTrimmed, hmark]
  dsimp only
  rw [isTemporal_dotted h hnames hnow htoday, isCall_dotted h hnames, hvariable, harithmetic]
  rfl

/-- Dotted names are classified as a path whose segments are the names: of a table where the first
name is in snake case, of a relation or a model where it is in Pascal case. -/
theorem parse_dotted
    (hnames : ∀ name ∈ first :: rest, IsIdentifier name ∧ name ≠ "first" ∧ name ≠ "last")
    (hnow : ¬ "NOW".toList <+: first.toList) (htoday : ¬ "TODAY".toList <+: first.toList)
    {before after : List Char} (hbefore : Text.Padding before)
    (htext : Dotted (first :: rest) text) (hafter : Text.Padding after) :
    (IsSnakeName first → parse (String.ofList (before ++ text ++ after)) =
        { raw := String.ofList text, kind := .table, path := first :: rest }) ∧
      (IsPascalName first → parse (String.ofList (before ++ text ++ after)) =
        { raw := String.ofList text
          kind := if 2 < (first :: rest).length then .relation else .model
          path := first :: rest }) := by
  have hidentifiers : ∀ name ∈ first :: rest, IsIdentifier name := fun name hname =>
    (hnames name hname).1
  have htrim : Text.trim (before ++ text ++ after) = text :=
    (Text.trim_padded hbefore hafter text).trans (htext.trimmed hidentifiers)
  have hparse : parse (String.ofList (before ++ text ++ after)) =
      { raw := String.ofList text, kind := pathKind (first :: rest), path := first :: rest } := by
    rw [parse, String.toList_ofList, classify, htrim,
      classifyTrimmed_dotted htext hidentifiers hnow htoday, ofPath, htext.segments_eq hidentifiers]
  obtain ⟨htable, hmodel⟩ := pathKind_names hnames
  refine ⟨fun hsnake => ?_, fun hpascal => ?_⟩
  · rw [hparse, htable hsnake]
  · rw [hparse, hmodel hpascal]

theorem dotted_homeAddress :
    Dotted ["Order", "customer", "home_address"] "Order .customer.\thome_address".toList := by
  have hspace : Text.Padding [' '] := by decide
  have htab : Text.Padding ['\t'] := by decide
  exact .dot "Order" hspace Text.padding_nil
    (.dot "customer" Text.padding_nil htab (.last "home_address"))

theorem parse_homeAddress :
    (∀ name ∈ ["Order", "customer", "home_address"],
        IsIdentifier name ∧ name ≠ "first" ∧ name ≠ "last") ∧
      ¬ "NOW".toList <+: "Order".toList ∧ ¬ "TODAY".toList <+: "Order".toList ∧
      Dotted ["Order", "customer", "home_address"] "Order .customer.\thome_address".toList ∧
      IsPascalName "Order" ∧
      parse " Order .customer.\thome_address" =
        { raw := "Order .customer.\thome_address"
          kind := .relation
          path := ["Order", "customer", "home_address"] } := by
  have horder : IsIdentifier "Order" :=
    ⟨'O', "rder".toList, rfl, by decide, by simp [Text.isNamePart]⟩
  have hcustomer : IsIdentifier "customer" :=
    ⟨'c', "ustomer".toList, rfl, by decide, by simp [Text.isNamePart]⟩
  have haddress : IsIdentifier "home_address" :=
    ⟨'h', "ome_address".toList, rfl, by decide, by simp [Text.isNamePart]⟩
  have hnames : ∀ name ∈ ["Order", "customer", "home_address"],
      IsIdentifier name ∧ name ≠ "first" ∧ name ≠ "last" := by
    simp [horder, hcustomer, haddress]
  have hpascal : IsPascalName "Order" := (isPascalCase_iff "Order").mp (by decide)
  have hspace : Text.Padding [' '] := by decide
  refine ⟨hnames, by decide, by decide, dotted_homeAddress, hpascal, ?_⟩
  exact (parse_dotted hnames (by decide) (by decide) hspace dotted_homeAddress
    Text.padding_nil).2 hpascal

end Token

end Placeholder
