import Mathlib
import Placeholder.Proofs.CreatedExpressions
import Placeholder.Proofs.RangeConditions
import Placeholder.Proofs.WrittenNumbers
import Placeholder.Token.Classify

/-!
# Calls and their arguments

A call is written as a name and, in parentheses, literals and references with commas between them.
The scanner of arguments takes a quoted text as a whole, whatever commas and parentheses it holds,
and is back outside of quotes behind every argument. So the call is classified with the very
arguments that it is written with, and with the positions of its references.
-/

namespace Placeholder

open Temporal (IsIdentifier)

namespace Path

theorem foldr_prepend (cs piece : List Char) (pieces : List (List Char)) :
    cs.foldr prepend (piece :: pieces) = (cs ++ piece) :: pieces := by
  induction cs with
  | nil => rfl
  | cons c cs ih =>
    rw [List.foldr_cons, ih]
    rfl

end Path

/-! ### Arguments as they are written -/

/-- A literal, or a reference to data by its text. -/
inductive WrittenArgument where
  | null
  | bool (b : Bool)
  | int (n : Int64)
  | quoted (content : String)
  | reference (text : String)

namespace WrittenArgument

def text : WrittenArgument → List Char
  | null => "null".toList
  | bool b => if b then "true".toList else "false".toList
  | int n => Text.intDigits n.toInt
  | quoted content => '\'' :: (content.toList ++ ['\''])
  | reference text => text.toList

/-- The value of a literal; a reference stands for its own text. -/
def value : WrittenArgument → Value
  | null => .null
  | bool b => .bool b
  | int n => .int n
  | quoted content => .string content
  | reference text => .string text

def isReference : WrittenArgument → Bool
  | reference _ => true
  | _ => false

/-- A text that can stand in quotes: it closes none, and the quote behind it is not escaped. -/
structure IsContent (content : List Char) : Prop where
  unquoted : ∀ c ∈ content, c ≠ '"' ∧ c ≠ '\''
  unescaped : content.getLast? ≠ some '\\'
  unmarked : ¬ "??".toList <:+: content

/-- A text that is no literal and has nothing in it that the scanner of arguments stops at. -/
structure IsReferenceText (text : List Char) : Prop where
  nonempty : text ≠ []
  trimmed : Text.Trimmed text
  plain : ∀ c ∈ text, (c ≠ '"' ∧ c ≠ '\'') ∧ c ≠ ',' ∧ c ≠ '(' ∧ c ≠ ')'
  unmarked : ¬ "??".toList <:+: text
  notNumeral : Number.isNumeral text = false
  notKeyword : Text.lowerAscii text ∉ ["true".toList, "false".toList, "null".toList]

def WellFormed : WrittenArgument → Prop
  | quoted content => IsContent content.toList
  | reference text => IsReferenceText text.toList
  | _ => True

end WrittenArgument

/-- A text of arguments: commas stand between them, and white space may stand around the commas. -/
inductive Listed : List WrittenArgument → List Char → Prop
  | none : Listed [] []
  | last (a : WrittenArgument) : Listed [a] a.text
  | comma (a : WrittenArgument) {b : WrittenArgument} {args : List WrittenArgument}
      {before after text : List Char} (hbefore : Text.Padding before) (hafter : Text.Padding after)
      (rest : Listed (b :: args) text) :
      Listed (a :: b :: args) (a.text ++ before ++ ',' :: (after ++ text))

/-! ### Scanning arguments -/

namespace Argument

/-- A character that the scanner passes over, within a quote or outside of quotes. -/
structure Inert (quote : Option Char) (c : Char) : Prop where
  unquoted : c ≠ '"' ∧ c ≠ '\''
  outside : quote = none → c ≠ ',' ∧ c ≠ '(' ∧ c ≠ ')'

theorem Inert.pieces_cons {quote : Option Char} {c : Char} (h : Inert quote c)
    (previous : Option Char) (cs : List Char) :
    pieces 0 quote previous (c :: cs) = Path.prepend c (pieces 0 quote (some c) cs) := by
  have hquote : nextQuote quote previous c = quote := if_neg (by simp [h.unquoted])
  rw [pieces, hquote]
  cases quote with
  | none =>
    obtain ⟨hcomma, hopen, hclose⟩ := h.outside rfl
    simp [hcomma, nextDepth, hopen, hclose]
  | some q => simp

theorem pieces_append {quote : Option Char} {cs : List Char} (h : ∀ c ∈ cs, Inert quote c)
    (previous : Option Char) (rest : List Char) :
    pieces 0 quote previous (cs ++ rest) =
      cs.foldr Path.prepend (pieces 0 quote (cs.getLast?.or previous) rest) := by
  induction cs generalizing previous with
  | nil => rfl
  | cons c cs ih =>
    obtain ⟨hc, hcs⟩ := List.forall_mem_cons.mp h
    have hlast : cs.getLast?.or (some c) = (c :: cs).getLast?.or previous := by
      rw [List.getLast?_cons]
      cases cs.getLast? <;> rfl
    rw [List.cons_append, hc.pieces_cons, ih hcs, List.foldr_cons, hlast]

theorem pieces_comma (previous : Option Char) (rest : List Char) :
    pieces 0 none previous (',' :: rest) = [] :: pieces 0 none (some ',') rest := by
  have hquote : nextQuote none previous ',' = none := if_neg (by simp)
  rw [pieces, hquote]
  simp [nextDepth]

/-- A quote without a backslash in front opens, and the same quote closes. -/
theorem nextQuote_of_unescaped {previous : Option Char} (h : previous ≠ some '\\') :
    nextQuote none previous '\'' = some '\'' ∧ nextQuote (some '\'') previous '\'' = none := by
  simp [nextQuote, h]

theorem pieces_quoted {content : List Char} (h : WrittenArgument.IsContent content)
    {previous : Option Char} (hprevious : previous ≠ some '\\') (rest : List Char) :
    pieces 0 none previous ('\'' :: (content ++ ['\'']) ++ rest) =
      ('\'' :: (content ++ ['\''])).foldr Path.prepend (pieces 0 none (some '\'') rest) := by
  have hopen : ∀ cs, pieces 0 none previous ('\'' :: cs) =
      Path.prepend '\'' (pieces 0 (some '\'') (some '\'') cs) := by
    intro cs
    rw [pieces, (nextQuote_of_unescaped hprevious).1]
    simp
  have hinside : ∀ c ∈ content, Inert (some '\'') c := fun c hc => ⟨h.unquoted c hc, nofun⟩
  -- The character in front of the closing quote is the last one inside, or the opening quote.
  have hbehind : content.getLast?.or (some '\'') ≠ some '\\' := by
    have hlast := h.unescaped
    cases hcontent : content.getLast? with
    | none => decide
    | some c =>
      rw [hcontent] at hlast
      exact hlast
  have hclose : pieces 0 (some '\'') (content.getLast?.or (some '\'')) ('\'' :: rest) =
      Path.prepend '\'' (pieces 0 none (some '\'') rest) := by
    rw [pieces, (nextQuote_of_unescaped hbehind).2]
    simp [nextDepth]
  rw [List.cons_append, List.append_assoc, List.singleton_append, hopen, pieces_append hinside,
    hclose, List.foldr_cons, List.foldr_append, List.foldr_cons, List.foldr_nil]

theorem inert_of_class {p : Char → Bool} (hp : ['"', '\'', ',', '(', ')'].any p = false) {c : Char}
    (h : p c = true) : Inert none c := by
  have hne : ∀ d ∈ ['"', '\'', ',', '(', ')'], c ≠ d := by
    rintro d hd rfl
    exact List.any_eq_false.mp hp c hd h
  exact ⟨⟨hne '"' (by decide), hne '\'' (by decide)⟩,
    fun _ => ⟨hne ',' (by decide), hne '(' (by decide), hne ')' (by decide)⟩⟩

theorem inert_of_padding {cs : List Char} (h : Text.Padding cs) : ∀ c ∈ cs, Inert none c :=
  fun c hc => inert_of_class (p := Text.isBlank) (by decide) (h c hc)

theorem inert_letters {cs : List Char} (h : cs.all Char.isAlpha = true) :
    ∀ c ∈ cs, Inert none c :=
  fun c hc => inert_of_class (p := Char.isAlpha) (by decide) (List.all_eq_true.mp h c hc)

theorem inert_intDigits (n : Int) : ∀ c ∈ Text.intDigits n, Inert none c := by
  have hdigits : ∀ c ∈ Text.natDigits n.natAbs, Inert none c := fun c hc =>
    inert_of_class (p := Char.isDigit) (by decide) (Text.isDigit_of_mem_natDigits hc)
  unfold Text.intDigits
  split
  · exact List.forall_mem_cons.mpr ⟨⟨by decide, by decide⟩, hdigits⟩
  · exact hdigits

/-- Behind an argument the scanner is outside of quotes, whatever the argument holds. -/
theorem exists_pieces_text {a : WrittenArgument} (h : a.WellFormed) {previous : Option Char}
    (hprevious : previous ≠ some '\\') (rest : List Char) :
    ∃ last, pieces 0 none previous (a.text ++ rest) =
      a.text.foldr Path.prepend (pieces 0 none last rest) := by
  cases a with
  | null => exact ⟨_, pieces_append (inert_letters (by decide)) previous rest⟩
  | bool b => cases b <;> exact ⟨_, pieces_append (inert_letters (by decide)) previous rest⟩
  | int n => exact ⟨_, pieces_append (inert_intDigits n.toInt) previous rest⟩
  | quoted content => exact ⟨_, pieces_quoted h hprevious rest⟩
  | reference text =>
    have hinert : ∀ c ∈ text.toList, Inert none c := fun c hc =>
      ⟨(h.plain c hc).1, fun _ => (h.plain c hc).2⟩
    exact ⟨_, pieces_append hinert previous rest⟩

theorem exists_pieces_spaced {a : WrittenArgument} (h : a.WellFormed) {front back : List Char}
    (hfront : Text.Padding front) (hback : Text.Padding back) {previous : Option Char}
    (hprevious : previous ≠ some '\\') (rest : List Char) :
    ∃ last, pieces 0 none previous (front ++ a.text ++ back ++ rest) =
      (front ++ a.text ++ back).foldr Path.prepend (pieces 0 none last rest) := by
  have hbehind : front.getLast?.or previous ≠ some '\\' := by
    cases hlast : front.getLast? with
    | none => exact hprevious
    | some c =>
      have hc := hfront c (List.mem_of_getLast? hlast)
      intro heq
      rw [Option.some_or, Option.some_inj] at heq
      rw [heq] at hc
      cases hc
  obtain ⟨last, hlast⟩ := exists_pieces_text h hbehind (back ++ rest)
  refine ⟨back.getLast?.or last, ?_⟩
  rw [List.append_assoc, List.append_assoc, pieces_append (inert_of_padding hfront), hlast,
    pieces_append (inert_of_padding hback), ← List.foldr_append, ← List.foldr_append,
    List.append_assoc]

end Argument

/-! ### Each argument by itself -/

namespace WrittenArgument

variable {a : WrittenArgument}

theorem visible_text (h : a.WellFormed) : a.text ≠ [] ∧ Text.Trimmed a.text := by
  cases a with
  | null => exact ⟨by decide, by decide⟩
  | bool b => cases b <;> exact ⟨by decide, by decide⟩
  | int n => exact ⟨(Text.visible_intDigits n.toInt).1, (Text.visible_intDigits n.toInt).trimmed⟩
  | quoted content =>
    have hends : Text.EndsVisible ('\'' :: (content.toList ++ ['\''])) :=
      ⟨'\'' :: content.toList, '\'', rfl, by decide⟩
    exact ⟨List.cons_ne_nil _ _, hends.trimmed_cons (by decide)⟩
  | reference text => exact ⟨h.nonempty, h.trimmed⟩

theorem unmarked_text (h : a.WellFormed) : ¬ "??".toList <:+: a.text := by
  have hletters : ∀ cs : List Char, '?' ∉ cs → ¬ "??".toList <:+: cs :=
    fun cs hcs hmark => hcs (hmark.subset (by decide))
  cases a with
  | null => exact hletters _ (by decide)
  | bool b => cases b <;> exact hletters _ (by decide)
  | int n =>
    refine hletters _ fun hmem => ?_
    rw [text, Text.intDigits] at hmem
    split_ifs at hmem
    · rcases List.mem_cons.mp hmem with heq | hmem
      · cases heq
      · cases Text.isDigit_of_mem_natDigits hmem
    · cases Text.isDigit_of_mem_natDigits hmem
  | quoted content =>
    have hquote : ∀ c ∈ ['\''], c ∉ "??".toList := List.forall_mem_singleton.mpr (by decide)
    have hmark := Text.infix_surrounded_iff (by decide) hquote hquote content.toList
    exact fun hin => h.unmarked (hmark.mp hin)
  | reference text => exact h.unmarked

end WrittenArgument

namespace Argument

theorem unquote?_quoted (content : List Char) :
    unquote? ('\'' :: (content ++ ['\''])) = some content := by
  obtain ⟨c, rest, hcons⟩ := List.exists_cons_of_ne_nil (List.concat_ne_nil '\'' content)
  have hlast : (c :: rest).getLast? = some '\'' := by rw [← hcons, List.getLast?_concat]
  rw [hcons, unquote?, if_pos ⟨Or.inr rfl, hlast⟩, ← hcons, List.dropLast_concat]

theorem unquote?_of_unquoted {cs : List Char} (h : ∀ c ∈ cs, c ≠ '"' ∧ c ≠ '\'') :
    unquote? cs = none := by
  rw [← Option.not_isSome_iff_eq_none]
  intro hsome
  obtain ⟨text, htext⟩ := Option.isSome_iff_exists.mp hsome
  obtain ⟨q, rest, rfl, hq⟩ := exists_quote_of_unquote? htext
  have hne := h q List.mem_cons_self
  exact hq.elim hne.1 hne.2

theorem keyword?_of_not_mem {cs : List Char}
    (h : Text.lowerAscii cs ∉ ["true".toList, "false".toList, "null".toList]) :
    keyword? cs = none := by
  simp only [List.mem_cons, List.not_mem_nil, or_false, not_or] at h
  obtain ⟨htrue, hfalse, hnull⟩ := h
  rw [keyword?, if_neg htrue, if_neg hfalse, if_neg hnull]

/-- A literal is decoded to its value and a reference to its text, and only the reference is taken
for one. -/
theorem decode_text {a : WrittenArgument} (h : a.WellFormed) :
    decode a.text = a.value ∧ isReference a.text = a.isReference := by
  cases a with
  | null => exact ⟨rfl, rfl⟩
  | bool b => cases b <;> exact ⟨rfl, rfl⟩
  | int n =>
    have hunquote : unquote? (Text.intDigits n.toInt) = none :=
      unquote?_of_unquoted fun c hc => (inert_intDigits n.toInt c hc).unquoted
    have hread := Number.readScalar?_intDigits n
    have hnumeral : Number.isNumeral (Text.intDigits n.toInt) = true := by
      rw [Number.readScalar?] at hread
      obtain ⟨numeral, hscan, -⟩ := Option.map_eq_some_iff.mp hread
      rw [Number.isNumeral, hscan]
      rfl
    rw [WrittenArgument.text, decode, isReference, hunquote, hread, hnumeral]
    exact ⟨rfl, rfl⟩
  | quoted content =>
    rw [WrittenArgument.text, decode, isReference, unquote?_quoted]
    exact ⟨congrArg Value.string String.ofList_toList, rfl⟩
  | reference text =>
    have hunquote := unquote?_of_unquoted fun c hc => (h.plain c hc).1
    have hnumeral := h.notNumeral
    have hread : Number.readScalar? text.toList = none := by
      rw [Number.isNumeral, Option.isSome_eq_false_iff, Option.isNone_iff_eq_none] at hnumeral
      rw [Number.readScalar?, hnumeral]
      rfl
    have hkeyword := keyword?_of_not_mem h.notKeyword
    rw [WrittenArgument.text, decode, isReference, hunquote, hread, hkeyword, hnumeral]
    exact ⟨congrArg Value.string String.ofList_toList, rfl⟩

/-! ### Lists of arguments -/

/-- The scanner cuts a list of arguments at the commas between them. -/
theorem trim_pieces_listed {args : List WrittenArgument} {text : List Char} (h : Listed args text)
    (hne : args ≠ []) (hargs : ∀ a ∈ args, a.WellFormed) {front : List Char}
    (hfront : Text.Padding front) {previous : Option Char} (hprevious : previous ≠ some '\\') :
    (pieces 0 none previous (front ++ text)).map Text.trim = args.map WrittenArgument.text := by
  have htrim : ∀ {a : WrittenArgument}, a.WellFormed → ∀ {front back : List Char},
      Text.Padding front → Text.Padding back → Text.trim (front ++ a.text ++ back) = a.text :=
    fun ha _ _ hfront hback =>
      (Text.trim_padded hfront hback _).trans (WrittenArgument.visible_text ha).2
  -- What stands in front changes from one argument to the next: first nothing, then a comma.
  induction h generalizing front previous with
  | none => exact absurd rfl hne
  | last a =>
    have ha := hargs a List.mem_cons_self
    obtain ⟨last, hlast⟩ := exists_pieces_spaced ha hfront Text.padding_nil hprevious []
    rw [List.append_nil] at hlast
    rw [← List.append_nil (front ++ a.text), hlast, pieces, Path.foldr_prepend, List.append_nil,
      List.map_cons, htrim ha hfront Text.padding_nil]
    rfl
  | comma a hbefore hafter rest ih =>
    obtain ⟨ha, hothers⟩ := List.forall_mem_cons.mp hargs
    obtain ⟨last, hlast⟩ := exists_pieces_spaced ha hfront hbefore hprevious (',' :: (_ ++ _))
    rw [← List.append_assoc, ← List.append_assoc, hlast, pieces_comma, Path.foldr_prepend,
      List.append_nil, List.map_cons, htrim ha hfront hbefore,
      ih (List.cons_ne_nil _ _) hothers hafter (by decide)]
    rfl

theorem dropEmptyLast_of_ne_nil {cuts : List (List Char)} (h : ∀ piece ∈ cuts, piece ≠ []) :
    dropEmptyLast cuts = cuts := by
  induction cuts with
  | nil => rfl
  | cons piece rest ih =>
    obtain ⟨hpiece, hrest⟩ := List.forall_mem_cons.mp h
    cases rest with
    | nil => rw [dropEmptyLast, List.isEmpty_eq_false_iff.mpr hpiece, if_neg Bool.false_ne_true]
    | cons next rest => rw [dropEmptyLast, ih hrest]

theorem split_listed {args : List WrittenArgument} {text : List Char} (h : Listed args text)
    (hargs : ∀ a ∈ args, a.WellFormed) : split text = args.map WrittenArgument.text := by
  by_cases hne : args = []
  · subst hne
    cases h
    rfl
  · -- No argument is empty, so the last piece stays.
    have hcut : (pieces 0 none none ([] ++ text)).map Text.trim = args.map WrittenArgument.text :=
      trim_pieces_listed h hne hargs Text.padding_nil (by decide)
    rw [List.nil_append] at hcut
    rw [split, hcut]
    refine dropEmptyLast_of_ne_nil fun piece hpiece => ?_
    obtain ⟨a, ha, rfl⟩ := List.mem_map.mp hpiece
    exact (WrittenArgument.visible_text (hargs a ha)).1

theorem decodeAll_listed {args : List WrittenArgument} {text : List Char} (h : Listed args text)
    (hargs : ∀ a ∈ args, a.WellFormed) : decodeAll text = args.map WrittenArgument.value := by
  rw [decodeAll, split_listed h hargs, List.map_map]
  exact List.map_congr_left fun a ha => (decode_text (hargs a ha)).1

theorem positions_text {args : List WrittenArgument} (hargs : ∀ a ∈ args, a.WellFormed)
    (start : Nat) :
    (((args.map WrittenArgument.text).zipIdx start).filter fun arg => isReference arg.1).map
      Prod.snd = args.findIdxs WrittenArgument.isReference start := by
  induction args generalizing start with
  | nil => rfl
  | cons a args ih =>
    obtain ⟨ha, hrest⟩ := List.forall_mem_cons.mp hargs
    rw [List.map_cons, List.zipIdx_cons, List.filter_cons, (decode_text ha).2, List.findIdxs_cons,
      ← ih hrest]
    split <;> rfl

theorem referencePositions_listed {args : List WrittenArgument} {text : List Char}
    (h : Listed args text) (hargs : ∀ a ∈ args, a.WellFormed) :
    referencePositions text = args.findIdxs WrittenArgument.isReference := by
  rw [referencePositions, split_listed h hargs]
  exact positions_text hargs 0

end Argument

/-- Characters of a class without `?` are none of a default's mark. -/
theorem not_question_of_class {p : Char → Bool} (hp : p '?' = false) {cs : List Char}
    (h : ∀ c ∈ cs, p c = true) : ∀ c ∈ cs, c ∉ "??".toList := by
  intro c hc hmem
  have hquestion : c = '?' := by simpa using hmem
  rw [← hquestion, h c hc] at hp
  contradiction

theorem Text.Padding.not_question {cs : List Char} (h : Text.Padding cs) :
    ∀ c ∈ cs, c ∉ "??".toList :=
  not_question_of_class (by decide) h

namespace Listed

variable {args : List WrittenArgument} {text : List Char}

theorem endsVisible (h : Listed args text) (hne : args ≠ [])
    (hargs : ∀ a ∈ args, a.WellFormed) : Text.EndsVisible text := by
  induction h with
  | none => exact absurd rfl hne
  | last a =>
    obtain ⟨hnil, htrimmed⟩ := WrittenArgument.visible_text (hargs a List.mem_cons_self)
    exact htrimmed.endsVisible hnil
  | @comma a b args before after text _ _ rest ih =>
    have hends := ih (List.cons_ne_nil _ _) (List.forall_mem_cons.mp hargs).2
    have hsplit : a.text ++ before ++ ',' :: (after ++ text) =
        (a.text ++ before ++ ',' :: after) ++ text := by simp
    rw [hsplit]
    exact hends.append_left _

theorem trimmed (h : Listed args text) (hargs : ∀ a ∈ args, a.WellFormed) :
    Text.Trimmed text := by
  by_cases hne : args = []
  · subst hne
    cases h
    rfl
  · have hends := h.endsVisible hne hargs
    obtain ⟨a, rest, rfl⟩ := List.exists_cons_of_ne_nil hne
    obtain ⟨hnil, htrimmed⟩ := WrittenArgument.visible_text (hargs a List.mem_cons_self)
    obtain ⟨c, cs, ha⟩ := List.exists_cons_of_ne_nil hnil
    rw [ha] at htrimmed
    obtain ⟨behind, rfl⟩ : ∃ behind, text = c :: behind := by
      cases h with
      | last => exact ⟨cs, ha⟩
      | comma => exact ⟨_, by rw [ha, List.cons_append, List.cons_append]⟩
    exact hends.trimmed_cons htrimmed.head_not_blank

theorem unmarked (h : Listed args text) (hargs : ∀ a ∈ args, a.WellFormed) :
    ¬ "??".toList <:+: text := by
  induction h with
  | none => decide
  | last a => exact WrittenArgument.unmarked_text (hargs a List.mem_cons_self)
  | @comma a b args before after text hbefore hafter rest ih =>
    obtain ⟨ha, hothers⟩ := List.forall_mem_cons.mp hargs
    have hfirst := Text.infix_surrounded_iff (by decide) Text.padding_nil.not_question
      hbefore.not_question a.text
    have hrest := Text.infix_surrounded_iff (by decide) hafter.not_question
      Text.padding_nil.not_question text
    rw [List.nil_append] at hfirst
    rw [List.append_nil] at hrest
    rw [Text.infix_append_cons_iff (by decide), hfirst, hrest, not_or]
    exact ⟨WrittenArgument.unmarked_text ha, ih hothers⟩

end Listed

/-! ### Calls -/

theorem takeName_call {name : String} (h : IsIdentifier name) (rest : List Char) :
    Text.takeName (name.toList ++ '(' :: rest) = (name.toList, '(' :: rest) := by
  obtain ⟨c, cs, hlist, hc, hcs⟩ := h
  rw [hlist]
  exact Temporal.Lexeme.takeName_append hc hcs (by rintro d ⟨⟩; decide)

/-- A call that closes at the end of the text is cut at its outermost parentheses. -/
theorem splitCall?_call {name : String} (h : IsIdentifier name) (inner : List Char) :
    splitCall? (name.toList ++ '(' :: (inner ++ [')'])) = some (name.toList, inner) := by
  have hempty : name.toList.isEmpty = false := by
    obtain ⟨c, cs, hlist, -, -⟩ := h
    rw [hlist]
    rfl
  have hopen : Text.after? ['('] ('(' :: (inner ++ [')'])) = some (inner ++ [')']) :=
    Text.after?_append ['('] _
  have hclose := Text.before?_append inner [')']
  rw [splitCall?, takeName_call h]
  dsimp only
  rw [hempty, if_neg Bool.false_ne_true, Text.trimStart_cons_of_not_blank (by decide), hopen,
    Option.bind_eq_bind, Option.bind_some, hclose]
  rfl

/-- A text that starts with a visible character and closes a parenthesis is nothing to trim. -/
theorem trim_call {c : Char} (hc : Text.isBlank c = false) (cs inner : List Char) :
    Text.trim (c :: cs ++ '(' :: (inner ++ [')'])) = c :: cs ++ '(' :: (inner ++ [')']) := by
  have hends : Text.EndsVisible (c :: cs ++ '(' :: (inner ++ [')'])) :=
    ⟨c :: cs ++ '(' :: inner, ')', by simp, by decide⟩
  exact hends.trimmed_cons hc

/-- No default stands in a call that has none in its name and none among its arguments. -/
theorem cut?_call {name inner : List Char} (hname : '?' ∉ name)
    (hinner : ¬ "??".toList <:+: inner) :
    Text.cut? "??".toList (name ++ '(' :: (inner ++ [')'])) = none := by
  have hfront : ¬ "??".toList <:+: name := fun hin => hname (hin.subset (by decide))
  have hclose : "??".toList <:+: [] ++ inner ++ [')'] ↔ "??".toList <:+: inner :=
    Text.infix_surrounded_iff (by decide) (List.forall_mem_nil _)
      (List.forall_mem_singleton.mpr (by decide)) inner
  rw [List.nil_append] at hclose
  rw [Text.cut?_eq_none_iff, Text.infix_append_cons_iff (by decide), hclose, not_or]
  exact ⟨hfront, hinner⟩

namespace Token

/-- The text of a call. -/
def callText (name : String) (inner : List Char) : String :=
  String.ofList (name.toList ++ '(' :: (inner ++ [')']))

theorem isCall_call {name : String} (h : IsIdentifier name) (rest : List Char) :
    isCall (name.toList ++ '(' :: rest) = true := by
  obtain ⟨c, cs, hlist, -, -⟩ := id h
  rw [isCall, takeName_call h]
  dsimp only
  rw [Text.trimStart_cons_of_not_blank (by decide), hlist]
  rfl

theorem isTemporal_call {name : String} (h : IsIdentifier name)
    (hnow : ¬ "NOW".toList <+: name.toList) (htoday : ¬ "TODAY".toList <+: name.toList)
    (rest : List Char) : isTemporal (name.toList ++ '(' :: rest) = false := by
  have hcolon : ':' ∉ name.toList := h.not_mem (by decide)
  have hprefix : ∀ {word : List Char}, '(' ∉ word → ¬ word <+: name.toList →
      Text.startsWith word (name.toList ++ '(' :: rest) = false := by
    intro word hword hstart
    rw [Bool.eq_false_iff, Ne, Text.startsWith_iff, Text.prefix_append_cons_iff hword]
    exact hstart
  rw [isTemporal, hprefix (by decide) fun hin => hcolon (hin.subset (by decide)),
    hprefix (by decide) hnow, hprefix (by decide) htoday]
  rfl

/-- A call is classified with the values of its arguments, and with the positions of those that
are references. -/
theorem parse_callText_listed {name : String} (hname : IsIdentifier name)
    (hnow : ¬ "NOW".toList <+: name.toList) (htoday : ¬ "TODAY".toList <+: name.toList)
    {args : List WrittenArgument} (hargs : ∀ a ∈ args, a.WellFormed)
    {before text after : List Char} (hbefore : Text.Padding before) (htext : Listed args text)
    (hafter : Text.Padding after) :
    parse (callText name (before ++ text ++ after)) =
      { raw := callText name (before ++ text ++ after)
        kind := .function
        path := []
        function := some name
        args := args.map WrittenArgument.value
        metadata := [("reference_args",
          Text.join "," ((args.findIdxs WrittenArgument.isReference).map Text.natText))] } := by
  have hunmarked : ¬ "??".toList <:+: before ++ text ++ after := by
    have hsurrounded := Text.infix_surrounded_iff (by decide) hbefore.not_question
      hafter.not_question text
    exact fun hin => htext.unmarked hargs (hsurrounded.mp hin)
  have hquestion : '?' ∉ name.toList := hname.not_mem (by decide)
  have htrim : Text.trim (before ++ text ++ after) = text :=
    (Text.trim_padded hbefore hafter text).trans (htext.trimmed hargs)
  have hwhole : Text.trim (name.toList ++ '(' :: (before ++ text ++ after ++ [')'])) =
      name.toList ++ '(' :: (before ++ text ++ after ++ [')']) := by
    obtain ⟨c, cs, hlist, hc, -⟩ := id hname
    have hvisible := Temporal.Lexeme.not_blank_of_isNamePart
      (Temporal.Lexeme.isNamePart_of_isNameStart hc)
    rw [hlist]
    exact trim_call hvisible cs _
  rw [parse, callText, String.toList_ofList, classify, hwhole, classifyTrimmed,
    cut?_call hquestion hunmarked]
  dsimp only
  rw [isTemporal_call hname hnow htoday, isCall_call hname, if_neg Bool.false_ne_true, if_pos rfl,
    ofCall, splitCall?_call hname]
  dsimp only
  rw [htrim, Argument.decodeAll_listed htext hargs, Argument.referencePositions_listed htext hargs,
    String.ofList_toList]

/-- A call with a reference, a quoted text full of separators, and literals of each other kind. -/
def concatArguments : List WrittenArgument :=
  [.reference "User.name", .quoted " a, (b) ", .int (-5), .null, .bool true]

theorem wellFormed_concatArguments : ∀ a ∈ concatArguments, a.WellFormed := by
  have hreference : WrittenArgument.IsReferenceText "User.name".toList :=
    ⟨by decide, by decide, by simp, by decide, by decide, by decide⟩
  have hquoted : WrittenArgument.IsContent " a, (b) ".toList :=
    ⟨by simp, by decide, by decide⟩
  rintro a (_ | ⟨_, _ | ⟨_, _ | ⟨_, _ | ⟨_, _ | ⟨_, ⟨⟩⟩⟩⟩⟩⟩)
  · exact hreference
  · exact hquoted
  all_goals trivial

theorem listed_concatArguments :
    Listed concatArguments "User.name , ' a, (b) ',-5, null,true".toList := by
  have hspace : Text.Padding [' '] := by decide
  exact .comma (.reference "User.name") hspace hspace
    (.comma (.quoted " a, (b) ") Text.padding_nil Text.padding_nil
      (.comma (.int (-5)) Text.padding_nil hspace
        (.comma .null Text.padding_nil Text.padding_nil (.last (.bool true)))))

theorem parse_concat :
    parse "concat(User.name , ' a, (b) ',-5, null,true)" =
      { raw := "concat(User.name , ' a, (b) ',-5, null,true)"
        kind := .function
        path := []
        function := some "concat"
        args := [.string "User.name", .string " a, (b) ", .int (-5), .null, .bool true]
        metadata := [("reference_args", "0")] } := by
  have hname : IsIdentifier "concat" :=
    ⟨'c', "oncat".toList, rfl, by decide, by simp [Text.isNamePart]⟩
  have htext : callText "concat" ([] ++ "User.name , ' a, (b) ',-5, null,true".toList ++ []) =
      "concat(User.name , ' a, (b) ',-5, null,true)" := by simp [callText]
  have hparse := parse_callText_listed hname (by decide) (by decide) wellFormed_concatArguments
    Text.padding_nil listed_concatArguments Text.padding_nil
  rw [htext] at hparse
  exact hparse

end Token

end Placeholder
