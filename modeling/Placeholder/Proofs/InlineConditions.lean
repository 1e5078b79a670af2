import Mathlib
import Placeholder.Proofs.FilledStatement
import Placeholder.Proofs.WrittenClause

/-!
# Conditions inside a block of declarations

A block is written with any white space around its arrows, its commas and its conditions. The
pattern of a condition takes one run of operand characters, or two with `AND` between them, whatever
stands in front of them. So a quoted operand with white space or a comma is cut short unless it has
this form itself, and a block is read back exactly where none is cut.
-/

namespace Placeholder.Clause

/-! ### What the pattern of a condition takes -/

/-- Two operands with the word `AND` between them. -/
def IsRange (cs : List Char) : Prop :=
  ∃ low gap link gap' high, IsOperand low ∧ IsGap gap ∧ IsKeyword "AND" link ∧ IsGap gap' ∧
    IsOperand high ∧ cs = low ++ (gap ++ (link ++ (gap' ++ high)))

theorem afterKeyword?_eq_some {keyword : String} {cs rest : List Char}
    (h : afterKeyword? keyword cs = some rest) :
    ∃ word, IsKeyword keyword word ∧ cs = word ++ rest := by
  simp only [afterKeyword?] at h
  split at h
  · cases h
  · split at h
    · rename_i hword
      cases h
      exact ⟨cs.take keyword.length, hword, (List.take_append_drop keyword.length cs).symm⟩
    · cases h

theorem afterOperand?_eq_some {cs rest : List Char} (h : afterOperand? cs = some rest) :
    ∃ gap operand, Text.Padding gap ∧ IsOperand operand ∧ cs = gap ++ (operand ++ rest) := by
  obtain ⟨⟨operand, tail⟩, hrun, rfl⟩ := Option.map_eq_some_iff.mp h
  obtain ⟨hne, hchars, hskip⟩ := takeRun?_eq_some hrun
  obtain ⟨gap, hgap, hcs⟩ := Text.exists_padding_trimStart cs
  rw [show Text.trimStart Text.isBlank cs = operand ++ tail from hskip] at hcs
  exact ⟨gap, operand, hgap, ⟨hne, hchars⟩, hcs⟩

theorem afterUpperEnd?_eq_some {cs rest : List Char} (h : afterUpperEnd? cs = some rest) :
    ∃ gap link gap' high, IsGap gap ∧ IsKeyword "AND" link ∧ IsGap gap' ∧ IsOperand high ∧
      cs = gap ++ (link ++ (gap' ++ (high ++ rest))) := by
  obtain ⟨⟨gap, tail⟩, hgap, h₁⟩ := Option.bind_eq_some_iff.mp h
  obtain ⟨tail', hlink, h₂⟩ := Option.bind_eq_some_iff.mp h₁
  obtain ⟨⟨gap', tail''⟩, hgap', h₃⟩ := Option.bind_eq_some_iff.mp h₂
  obtain ⟨hne, hblank, hcs⟩ := takeRun?_eq_some hgap
  obtain ⟨link, hword, htail⟩ := afterKeyword?_eq_some hlink
  obtain ⟨hne', hblank', htail'⟩ := takeRun?_eq_some hgap'
  obtain ⟨more, high, hmore, hhigh, htail''⟩ := afterOperand?_eq_some h₃
  have hwide : IsGap (gap' ++ more) :=
    ⟨List.append_ne_nil_of_left_ne_nil hne' more, Text.padding_append.mpr ⟨hblank', hmore⟩⟩
  refine ⟨gap, link, gap' ++ more, high, ⟨hne, hblank⟩, hword, hwide, hhigh, ?_⟩
  rw [hcs, htail, htail', htail'', List.append_assoc]

/-- Behind an operator the pattern takes a run of operand characters, and a second one behind
`AND`. -/
theorem afterCondition?_run {gap operator gap' run tail : List Char} (hgap : Text.Padding gap)
    (hne : operator ≠ []) (hoperator : ∀ c ∈ operator, isOperatorChar c = true)
    (hgap' : Text.Padding gap') (hrun : IsOperand run) (hfirst : Stops isOperatorChar run)
    (htail : Stops isOperandChar tail) :
    afterCondition? (gap ++ (operator ++ (gap' ++ (run ++ tail)))) =
      some ((afterUpperEnd? tail).getD tail) := by
  have hskip : skipBlank (gap ++ (operator ++ (gap' ++ (run ++ tail)))) =
      operator ++ (gap' ++ (run ++ tail)) := by
    obtain ⟨c, others, rfl⟩ := List.exists_cons_of_ne_nil hne
    have hc := isBlank_of_isOperatorChar (hoperator c List.mem_cons_self)
    rw [skipBlank, Text.trimStart_append_of_padding hgap]
    exact Text.trimStart_cons_of_not_blank hc _
  have hstops : Stops isOperatorChar (gap' ++ (run ++ tail)) := by
    cases gap' with
    | cons b gap' => exact stops_cons.mpr (isOperatorChar_of_isBlank (hgap' b List.mem_cons_self))
    | nil =>
      obtain ⟨c, others, rfl⟩ := List.exists_cons_of_ne_nil hrun.1
      exact stops_cons.mpr (stops_cons.mp hfirst)
  have hcomparison : afterComparison? (operator ++ (gap' ++ (run ++ tail))) = some tail := by
    rw [afterComparison?, takeRun?_append hne hoperator hstops]
    simp only [Option.bind_eq_bind, Option.bind_some, afterOperand?_padded hgap' hrun htail]
  simp only [afterCondition?, hskip, hcomparison, Option.some_or, Option.bind_eq_bind,
    Option.bind_some]

/-! ### Operands and conditions -/

inductive Operand where
  | bare (text : List Char)
  | quoted (quote : Char) (inner : List Char)

namespace Operand

def text : Operand → List Char
  | bare text => text
  | quoted quote inner => quote :: (inner ++ [quote])

def WellFormed : Operand → Prop
  | bare text => IsOperand text
  | quoted quote _ => quote = '\x27' ∨ quote = '\x22'

/-- The pattern of a condition takes the whole operand. -/
def Whole : Operand → Prop
  | bare _ => True
  | quoted quote inner => IsOperand (quoted quote inner).text ∨ IsRange (quoted quote inner).text

end Operand

inductive InlineCondition where
  | comparison (operator gap : List Char) (operand : Operand)
  | between (word gap low gap' link gap'' high : List Char)

namespace InlineCondition

def text : InlineCondition → List Char
  | comparison operator gap operand => operator ++ (gap ++ operand.text)
  | between word gap low gap' link gap'' high =>
    word ++ (gap ++ (low ++ (gap' ++ (link ++ (gap'' ++ high)))))

def WellFormed : InlineCondition → Prop
  | comparison operator gap operand =>
    operator ≠ [] ∧ (∀ c ∈ operator, isOperatorChar c = true) ∧ Text.Padding gap ∧
      operand.WellFormed
  | between word gap low gap' link gap'' high =>
    IsKeyword "BETWEEN" word ∧ IsGap gap ∧ IsOperand low ∧ IsGap gap' ∧ IsKeyword "AND" link ∧
      IsGap gap'' ∧ IsOperand high

def Whole : InlineCondition → Prop
  | comparison _ _ operand => operand.Whole
  | between .. => True

end InlineCondition

section Taking

variable {gap operator gap' inner rest : List Char} {quote : Char}

theorem quoted_chars (h : (Operand.quoted quote inner).WellFormed) :
    isOperandChar quote = true ∧ isOperatorChar quote = false := by
  rcases h with rfl | rfl <;> decide

/-- A quoted text is a run of operand characters and what follows the run. -/
theorem exists_run (hchar : isOperandChar quote = true) (inner : List Char) :
    ∃ run more, (Operand.quoted quote inner).text = quote :: run ++ more ∧
      IsOperand (quote :: run) ∧ Stops isOperandChar more := by
  refine ⟨(inner ++ [quote]).takeWhile isOperandChar, (inner ++ [quote]).dropWhile isOperandChar,
    ?_, ⟨List.cons_ne_nil _ _, ?_⟩, stops_dropWhile isOperandChar _⟩
  · rw [List.cons_append, List.takeWhile_append_dropWhile]
    rfl
  · exact List.forall_mem_cons.mpr ⟨hchar, fun c hc => List.mem_takeWhile_imp hc⟩

theorem trimmed_comparison (hne : operator ≠ [])
    (hoperator : ∀ c ∈ operator, isOperatorChar c = true) {text : List Char}
    (htext : Text.EndsVisible text) : Text.Trimmed (operator ++ (gap ++ text)) := by
  obtain ⟨c, others, rfl⟩ := List.exists_cons_of_ne_nil hne
  have hends := (htext.append_left gap).append_left (c :: others)
  exact hends.trimmed_cons (isBlank_of_isOperatorChar (hoperator c List.mem_cons_self))

/-- A condition that is cut behind a text compares with this text. -/
theorem eq_of_takeCondition (hgap : Text.Padding gap) (hne : operator ≠ [])
    (hoperator : ∀ c ∈ operator, isOperatorChar c = true) {text used left : List Char}
    (hends : Text.EndsVisible used) (hsplit : text ++ rest = used ++ left)
    (hafter : afterCondition? (gap ++ (operator ++ (gap' ++ (used ++ left)))) = some left)
    (h : (takeCondition (gap ++ (operator ++ (gap' ++ text) ++ rest))).1 =
      some (operator ++ (gap' ++ text))) : text = used := by
  have hcut : afterCondition? (gap ++ (operator ++ (gap' ++ used) ++ left)) = some left := by
    rw [List.append_assoc, List.append_assoc]
    exact hafter
  have htake := takeCondition_of_after hgap (trimmed_comparison hne hoperator hends) hcut
  rw [List.append_assoc, List.append_assoc] at h htake
  rw [hsplit, htake] at h
  simpa using (Option.some.inj h).symm

section

variable (hgap : Text.Padding gap) (hne : operator ≠ [])
  (hoperator : ∀ c ∈ operator, isOperatorChar c = true) (hgap' : Text.Padding gap')
  (hquote : (Operand.quoted quote inner).WellFormed)
include hgap hne hoperator hgap' hquote

theorem takeCondition_quoted (hrest : Ends rest) (hwhole : (Operand.quoted quote inner).Whole) :
    takeCondition (gap ++ (operator ++ (gap' ++ (Operand.quoted quote inner).text) ++ rest)) =
      (some (operator ++ (gap' ++ (Operand.quoted quote inner).text)), rest) := by
  have hfirst : Stops isOperatorChar (Operand.quoted quote inner).text :=
    stops_cons.mpr (quoted_chars hquote).2
  rcases hwhole with hoperand | hrange
  · have hafter := afterCondition?_run hgap hne hoperator hgap' hoperand hfirst
      hrest.stops_operand
    rw [afterUpperEnd?_of_ends hrest, Option.getD_none] at hafter
    apply takeCondition_of_after hgap (trimmed_comparison hne hoperator hoperand.endsVisible)
    rw [List.append_assoc, List.append_assoc]
    exact hafter
  · obtain ⟨low, gap₁, link, gap₂, high, hlow, hgap₁, hlink, hgap₂, hhigh, htext⟩ := hrange
    rw [htext] at hfirst ⊢
    have hlowFirst : Stops isOperatorChar low := by
      obtain ⟨c, others, rfl⟩ := List.exists_cons_of_ne_nil hlow.1
      exact stops_cons.mpr (stops_cons.mp hfirst)
    have hafter := afterCondition?_run hgap hne hoperator hgap' hlow hlowFirst
      (hgap₁.stops (fun _ => isOperandChar_of_isBlank) (link ++ (gap₂ ++ (high ++ rest))))
    rw [afterUpperEnd?_written hgap₁ hlink hgap₂ hhigh hrest.stops_operand,
      Option.getD_some] at hafter
    have hends := (((hhigh.endsVisible.append_left gap₂).append_left link).append_left
      gap₁).append_left low
    apply takeCondition_of_after hgap (trimmed_comparison hne hoperator hends)
    simp only [List.append_assoc]
    exact hafter

/-- A quoted operand that the condition ends with is one run of operand characters or a range. -/
theorem whole_of_takeCondition
    (h : (takeCondition (gap ++
      (operator ++ (gap' ++ (Operand.quoted quote inner).text) ++ rest))).1 =
        some (operator ++ (gap' ++ (Operand.quoted quote inner).text))) :
    (Operand.quoted quote inner).Whole := by
  obtain ⟨hchar, hfirst⟩ := quoted_chars hquote
  rw [Operand.Whole]
  obtain ⟨run, more, htext, hrun, hmore⟩ := exists_run hchar inner
  generalize (Operand.quoted quote inner).text = text at h htext ⊢
  cases more with
  | nil =>
    rw [htext, List.append_nil]
    exact .inl hrun
  | cons m more =>
    have hstops : Stops isOperandChar (m :: more ++ rest) := stops_cons.mpr (stops_cons.mp hmore)
    have hafter := afterCondition?_run hgap hne hoperator hgap' hrun (stops_cons.mpr hfirst) hstops
    have hsplit : text ++ rest = quote :: run ++ (m :: more ++ rest) := by
      rw [htext, List.append_assoc]
    -- The condition ends behind the first run, or behind the second one.
    cases hupper : afterUpperEnd? (m :: more ++ rest) with
    | none =>
      rw [hupper, Option.getD_none] at hafter
      have hshort := eq_of_takeCondition hgap hne hoperator hrun.endsVisible hsplit hafter h
      rw [htext] at hshort
      exact absurd hshort (by simp)
    | some rest' =>
      obtain ⟨gap₁, link, gap₂, high, hgap₁, hlink, hgap₂, hhigh, htail⟩ :=
        afterUpperEnd?_eq_some hupper
      rw [hupper, Option.getD_some] at hafter
      have hends := (((hhigh.endsVisible.append_left gap₂).append_left link).append_left
        gap₁).append_left (quote :: run)
      have hused : quote :: run ++ (m :: more ++ rest) =
          quote :: run ++ (gap₁ ++ (link ++ (gap₂ ++ high))) ++ rest' := by
        simp [htail]
      rw [hused] at hsplit hafter
      have hrange := eq_of_takeCondition hgap hne hoperator hends hsplit hafter h
      exact .inr ⟨quote :: run, gap₁, link, gap₂, high, hrun, hgap₁, hlink, hgap₂, hhigh, hrange⟩

end

variable {c : InlineCondition}

theorem conditionText_between {word low link gap'' high : List Char}
    (h : (InlineCondition.between word gap low gap' link gap'' high).WellFormed) :
    ConditionText (InlineCondition.between word gap low gap' link gap'' high).text := by
  obtain ⟨hword, hgap, hlow, hgap', hlink, hgap'', hhigh⟩ := h
  exact .between hword hgap hlow hgap' hlink hgap'' hhigh

theorem takeCondition_text (hgap : Text.Padding gap) (h : c.WellFormed) (hrest : Ends rest)
    (hwhole : c.Whole) : takeCondition (gap ++ (c.text ++ rest)) = (some c.text, rest) := by
  cases c with
  | comparison operator gap' operand =>
    obtain ⟨hne, hoperator, hgap', hoperand⟩ := h
    cases operand with
    | bare text =>
      exact takeCondition_written hgap (.comparison hne hoperator hgap' hoperand) hrest
    | quoted quote inner =>
      exact takeCondition_quoted hgap hne hoperator hgap' hoperand hrest hwhole
  | between => exact takeCondition_written hgap (conditionText_between h) hrest

theorem InlineCondition.whole_of_take (hgap : Text.Padding gap) (h : c.WellFormed)
    (htake : (takeCondition (gap ++ (c.text ++ rest))).1 = some c.text) : c.Whole := by
  cases c with
  | comparison operator gap' operand =>
    obtain ⟨hne, hoperator, hgap', hoperand⟩ := h
    cases operand with
    | bare text => trivial
    | quoted quote inner =>
      exact whole_of_takeCondition hgap hne hoperator hgap' hoperand htake
  | between => trivial

end Taking

/-! ### Declarations with white space -/

/-- A declaration and the white space around its arrow and in front of its condition. -/
structure SpacedDeclaration where
  name : String
  beforeArrow : List Char
  afterArrow : List Char
  content : List Char
  condition : Option (List Char × InlineCondition)

namespace SpacedDeclaration

def conditionText (d : SpacedDeclaration) : List Char :=
  match d.condition with
  | none => []
  | some (gap, c) => gap ++ c.text

def text (d : SpacedDeclaration) : List Char :=
  '\x7b' :: (d.name.toList ++ '\x7d' :: (d.beforeArrow ++ '=' :: '>' ::
    (d.afterArrow ++ (Template.embrace d.content ++ d.conditionText))))

/-- What the declaration says: its condition is the whole text of it. -/
def declaration (d : SpacedDeclaration) : Declaration :=
  ⟨d.name, String.ofList (Template.embrace d.content),
    d.condition.map fun c => String.ofList c.2.text⟩

structure WellFormed (d : SpacedDeclaration) : Prop where
  name : IsName d.name
  beforeArrow : Text.Padding d.beforeArrow
  afterArrow : Text.Padding d.afterArrow
  content_ne_nil : d.content ≠ []
  content_closed : '\x7d' ∉ d.content
  condition : ∀ c ∈ d.condition, Text.Padding c.1 ∧ c.2.WellFormed

def Whole (d : SpacedDeclaration) : Prop :=
  ∀ c ∈ d.condition, c.2.Whole

end SpacedDeclaration

/-- A declaration is read up to where it ends exactly if its condition is taken whole. Otherwise
another one is read. -/
theorem exists_takeDeclaration? {d : SpacedDeclaration} (h : d.WellFormed) {rest : List Char}
    (hrest : Ends rest) :
    ∃ found rest', takeDeclaration? (d.text ++ rest) = some (found, rest') ∧
      (found = d.declaration ↔ d.Whole) ∧ (d.Whole → rest' = rest) := by
  have htext : d.text ++ rest = '\x7b' :: (d.name.toList ++ '\x7d' :: (d.beforeArrow ++
      '=' :: '>' :: (d.afterArrow ++ (Template.embrace d.content ++
        (d.conditionText ++ rest))))) := by
    simp [SpacedDeclaration.text]
  have htake := takeDeclaration?_append h.name.1 h.name.2 h.beforeArrow h.afterArrow
    h.content_ne_nil h.content_closed (d.conditionText ++ rest)
  rw [← htext] at htake
  refine ⟨_, _, htake, ?_⟩
  rw [String.ofList_toList, SpacedDeclaration.declaration, Declaration.mk.injEq]
  unfold SpacedDeclaration.Whole SpacedDeclaration.conditionText
  cases hcondition : d.condition with
  | none => simp [takeCondition_of_ends hrest]
  | some spaced =>
    obtain ⟨gap, c⟩ := spaced
    obtain ⟨hgap, hc⟩ := h.condition _ hcondition
    have hassoc : gap ++ c.text ++ rest = gap ++ (c.text ++ rest) := List.append_assoc _ _ _
    simp only [hassoc, Option.map_some, Option.mem_some_iff, true_and, forall_eq']
    constructor
    · constructor
      · intro hfound
        obtain ⟨taken, htaken, heq⟩ := Option.map_eq_some_iff.mp hfound
        rw [String.ofList_inj.mp heq] at htaken
        exact InlineCondition.whole_of_take hgap hc htaken
      · intro hwhole
        rw [takeCondition_text hgap hc hrest hwhole]
        rfl
    · intro hwhole
      rw [takeCondition_text hgap hc hrest hwhole]

/-! ### Blocks with white space -/

structure Comma where
  before : List Char
  after : List Char

def Comma.text (comma : Comma) : List Char :=
  comma.before ++ ',' :: comma.after

def Comma.WellFormed (comma : Comma) : Prop :=
  Text.Padding comma.before ∧ Text.Padding comma.after

structure Block where
  first : SpacedDeclaration
  others : List (Comma × SpacedDeclaration)

/-- The text of the declarations behind the first one. -/
def othersText (others : List (Comma × SpacedDeclaration)) : List Char :=
  others.flatMap fun other => other.1.text ++ other.2.text

namespace Block

def text (block : Block) : List Char :=
  block.first.text ++ othersText block.others

def spaced (block : Block) : List SpacedDeclaration :=
  block.first :: block.others.map Prod.snd

def declarations (block : Block) : List Declaration :=
  block.spaced.map SpacedDeclaration.declaration

def WellFormed (block : Block) : Prop :=
  block.first.WellFormed ∧ ∀ other ∈ block.others, other.1.WellFormed ∧ other.2.WellFormed

end Block

theorem othersText_cons (comma : Comma) (d : SpacedDeclaration)
    (others : List (Comma × SpacedDeclaration)) :
    othersText ((comma, d) :: others) = comma.text ++ (d.text ++ othersText others) := by
  simp [othersText]

theorem ends_othersText {others : List (Comma × SpacedDeclaration)}
    (h : ∀ other ∈ others, other.1.WellFormed ∧ other.2.WellFormed) : Ends (othersText others) := by
  cases others with
  | nil => exact Follows.ends (.inl rfl)
  | cons other others =>
    obtain ⟨comma, d⟩ := other
    obtain ⟨hbefore, -⟩ := (h _ List.mem_cons_self).1
    have hskip : skipBlank (othersText ((comma, d) :: others)) =
        ',' :: (comma.after ++ (d.text ++ othersText others)) := by
      rw [othersText_cons, Comma.text, List.append_assoc, skipBlank,
        Text.trimStart_append_of_padding hbefore]
      exact Text.trimStart_cons_of_not_blank (by decide) _
    rw [Ends, hskip]
    exact .inr ⟨_, rfl⟩

theorem readDeclarationsFrom_skip {gap : List Char} (h : '\x7b' ∉ gap) (fuel : Nat)
    (rest : List Char) :
    readDeclarationsFrom (gap.length + fuel) (gap ++ rest) = readDeclarationsFrom fuel rest := by
  induction gap with
  | nil => rw [List.nil_append, List.length_nil, Nat.zero_add]
  | cons c gap ih =>
    rw [List.mem_cons, not_or] at h
    rw [List.cons_append, List.length_cons, Nat.add_right_comm,
      readDeclarationsFrom_of_ne (Ne.symm h.1)]
    exact ih h.2

theorem Comma.WellFormed.not_mem_open {comma : Comma} (h : comma.WellFormed) :
    '\x7b' ∉ comma.text := by
  have hbefore := (Template.braceFree_of_padding h.1).not_mem_open
  have hafter := (Template.braceFree_of_padding h.2).not_mem_open
  simp [Comma.text, hbefore, hafter]

/-- The declarations of a block are read back exactly if no condition is cut: each is read in one
step, up to the comma if its condition is whole. -/
theorem readDeclarationsFrom_text_iff {first : SpacedDeclaration}
    {others : List (Comma × SpacedDeclaration)} (h : (Block.mk first others).WellFormed)
    {fuel : Nat} (hfuel : (Block.mk first others).text.length ≤ fuel) :
    readDeclarationsFrom fuel (Block.mk first others).text = (Block.mk first others).declarations ↔
      ∀ d ∈ (Block.mk first others).spaced, d.Whole := by
  induction others generalizing first fuel with
  | nil =>
    obtain ⟨found, rest, htake, hfound, hrest⟩ := exists_takeDeclaration? h.1 (ends_othersText h.2)
    have hlen : 0 < first.text.length := Nat.succ_pos _
    simp only [Block.text, List.length_append] at hfuel
    obtain ⟨fuel, rfl⟩ := Nat.exists_eq_add_of_le' (by omega : 1 ≤ fuel)
    simp only [Block.text, Block.declarations, Block.spaced, List.map_nil, List.map_cons,
      readDeclarationsFrom_of_take htake, List.cons.injEq, hfound, List.forall_mem_singleton]
    apply and_iff_left_of_imp
    intro hwhole
    rw [hrest hwhole]
    exact readDeclarationsFrom_nil fuel
  | cons other others ih =>
    obtain ⟨comma, d⟩ := other
    obtain ⟨found, rest, htake, hfound, hrest⟩ := exists_takeDeclaration? h.1 (ends_othersText h.2)
    obtain ⟨⟨hcomma, hd⟩, hothers⟩ := List.forall_mem_cons.mp h.2
    have hlen : 0 < first.text.length := Nat.succ_pos _
    simp only [Block.text, othersText_cons, List.length_append] at hfuel
    obtain ⟨fuel, rfl⟩ := Nat.exists_eq_add_of_le' (by omega : comma.text.length + 1 ≤ fuel)
    have hlength : (Block.mk d others).text.length ≤ fuel := by
      simp only [Block.text, List.length_append]
      omega
    have hnext := ih ⟨hd, hothers⟩ hlength
    have hstep : fuel + (comma.text.length + 1) = comma.text.length + fuel + 1 := by omega
    simp only [Block.text, Block.declarations, Block.spaced, List.map_cons, hstep,
      readDeclarationsFrom_of_take htake, List.cons.injEq, hfound, List.forall_mem_cons] at hnext ⊢
    apply and_congr_right
    intro hwhole
    rw [hrest hwhole, othersText_cons, readDeclarationsFrom_skip hcomma.not_mem_open]
    exact hnext

/-! ### Clauses -/

/-- The block stands between the keyword and the first separator of the template, and a statement
behind the separator. -/
def Block.StandsIn (block : Block) (template : String) : Prop :=
  ∃ before after statement, Text.Padding before ∧ Text.Padding after ∧ ¬ Text.Padding statement ∧
    ¬ separator <:+: block.text ++ (after ++ ['&']) ∧
    Text.trim template.toList =
      "USE ".toList ++ (before ++ (block.text ++ (after ++ (separator ++ statement))))

/-- The declarations of the clause are the ones that the block is written from. -/
def Block.ReadsBack (block : Block) (template : String) : Prop :=
  ∃ clause, read template = .ok clause ∧ clause.declarations = block.declarations

theorem InlineCondition.endsVisible {c : InlineCondition} (h : c.WellFormed) :
    Text.EndsVisible c.text := by
  cases c with
  | comparison operator gap operand =>
    obtain ⟨-, -, -, hoperand⟩ := h
    have hends : Text.EndsVisible operand.text := by
      cases operand with
      | bare text => exact IsOperand.endsVisible hoperand
      | quoted quote inner =>
        exact ⟨quote :: inner, quote, rfl, isBlank_of_isOperandChar (quoted_chars hoperand).1⟩
    exact (hends.append_left gap).append_left operator
  | between => exact (conditionText_between h).endsVisible

theorem SpacedDeclaration.WellFormed.endsVisible {d : SpacedDeclaration} (h : d.WellFormed) :
    Text.EndsVisible d.text := by
  have hbraces : Text.EndsVisible (Template.embrace d.content) :=
    ⟨'\x7b' :: '\x7b' :: (d.content ++ ['\x7d']), '\x7d', by simp [Template.embrace], by decide⟩
  have hend : Text.EndsVisible (Template.embrace d.content ++ d.conditionText) := by
    unfold SpacedDeclaration.conditionText
    cases hcondition : d.condition with
    | none =>
      rw [List.append_nil]
      exact hbraces
    | some spaced =>
      have hc := (h.condition spaced hcondition).2
      exact ((InlineCondition.endsVisible hc).append_left spaced.1).append_left _
  have htext : d.text = '\x7b' :: (d.name.toList ++ '\x7d' :: (d.beforeArrow ++ '=' :: '>' ::
      d.afterArrow)) ++ (Template.embrace d.content ++ d.conditionText) := by
    simp [SpacedDeclaration.text]
  rw [htext]
  exact hend.append_left _

theorem endsVisible_text {first : SpacedDeclaration} {others : List (Comma × SpacedDeclaration)}
    (h : (Block.mk first others).WellFormed) : Text.EndsVisible (Block.mk first others).text := by
  induction others generalizing first with
  | nil =>
    rw [Block.text, othersText, List.flatMap_nil, List.append_nil]
    exact h.1.endsVisible
  | cons other others ih =>
    obtain ⟨⟨-, hd⟩, hothers⟩ := List.forall_mem_cons.mp h.2
    have hrest := ih ⟨hd, hothers⟩
    rw [Block.text, othersText_cons]
    exact (hrest.append_left other.1.text).append_left first.text

/-- A block is read back exactly if its names are distinct and the pattern of a condition takes each
quoted operand whole: one without white space and commas, or two such parts with `AND` between
them. -/
theorem readsBack_iff {block : Block} (h : block.WellFormed) {template : String}
    (hstands : block.StandsIn template) :
    block.ReadsBack template ↔
      (block.declarations.map Declaration.name).Nodup ∧ ∀ d ∈ block.spaced, d.Whole := by
  obtain ⟨before, after, statement, hbefore, hafter, hstatement, hfree, htemplate⟩ := hstands
  have hopens : ∃ rest, block.text = '\x7b' :: rest := ⟨_, rfl⟩
  have hends : Text.EndsVisible block.text := endsVisible_text h
  have hparts := parts_of_block hbefore hafter hopens hends hstatement hfree htemplate
  have hwhole : readDeclarations block.text = block.declarations ↔ ∀ d ∈ block.spaced, d.Whole :=
    readDeclarationsFrom_text_iff h le_rfl
  have hnodup : ∀ ds : List Declaration, duplicate? [] ds = none ↔
      (ds.map Declaration.name).Nodup := by
    intro ds
    rw [duplicate?_eq_none_iff, and_iff_left fun d _ => List.not_mem_nil]
  rw [← hwhole, ← hnodup]
  constructor
  · intro hback
    obtain ⟨clause, hread, hdeclarations⟩ := hback
    rw [read, hparts] at hread
    split at hread
    · rename_i found text hfound
      split at hfound
      · cases hfound
      · split at hfound
        · cases hfound
        · rename_i hnone
          cases hfound
          cases hread
          rw [← hdeclarations]
          exact ⟨hnone, rfl⟩
    · cases hread
  · intro hboth
    obtain ⟨hnone, hdeclarations⟩ := hboth
    refine ⟨⟨block.declarations, String.ofList (Text.trim statement), template⟩, ?_, rfl⟩
    have hne : block.declarations.isEmpty = false := rfl
    rw [read, hparts, hdeclarations, hne, hnone]
    rfl

/-- Two declarations: the operand of the first is a range in quotes, the second has no white space
around its arrow. -/
def seasoned : Block where
  first :=
    ⟨"title", [' '], [' '], "dish.title".toList,
      some ([' '], .comparison ['='] [' '] (.quoted '\x27' "salt AND pepper".toList))⟩
  others :=
    [(⟨[' '], ['\n']⟩, ⟨"n", [], [], "dish.count".toList,
      some ([' '], .between "between".toList [' '] ['1'] [' '] "and".toList [' '] ['5'])⟩)]

def recipe : String :=
  "USE \x7btitle\x7d => \x7b\x7bdish.title\x7d\x7d = 'salt AND pepper' ,\n" ++
    "\x7bn\x7d=>\x7b\x7bdish.count\x7d\x7d between 1 and 5 && print \x7bn\x7d"

theorem readsBack_seasoned :
    seasoned.WellFormed ∧ seasoned.StandsIn recipe ∧ seasoned.ReadsBack recipe := by
  have hblank : Text.Padding [' '] := by decide
  have hgap : IsGap [' '] := ⟨by decide, hblank⟩
  have hoperator : ∀ c ∈ ['='], isOperatorChar c = true := List.all_eq_true.mp (by decide)
  have hfirst : seasoned.first.WellFormed := by
    refine ⟨by decide, hblank, hblank, by decide, by decide, ?_⟩
    intro spaced hspaced
    cases hspaced
    exact ⟨hblank, by decide, hoperator, hblank, .inl rfl⟩
  have hsecond : ∀ other ∈ seasoned.others, other.1.WellFormed ∧ other.2.WellFormed := by
    refine List.forall_mem_singleton.mpr
      ⟨⟨hblank, by decide⟩, by decide, by decide, by decide, by decide, by decide, ?_⟩
    intro spaced hspaced
    cases hspaced
    exact ⟨hblank, by decide, hgap, by decide, hgap, by decide, hgap, by decide⟩
  have hstands : seasoned.StandsIn recipe := by
    refine ⟨[], [' '], " print \x7bn\x7d".toList, by decide, hblank, by decide, ?_, by decide⟩
    rw [List.singleton_append, separator_infix_append_cons (by decide), or_iff_left (by decide)]
    exact not_separator_infix fun c hc heq => absurd (heq ▸ hc) (by decide)
  have hwhole : ∀ d ∈ seasoned.spaced, d.Whole := by
    refine List.forall_mem_cons.mpr ⟨?_, List.forall_mem_singleton.mpr ?_⟩
    · intro spaced hspaced
      cases hspaced
      exact .inr ⟨"'salt".toList, [' '], "AND".toList, [' '], "pepper'".toList, by decide, hgap,
        by decide, hgap, by decide, by decide⟩
    · intro spaced hspaced
      cases hspaced
      trivial
  exact ⟨⟨hfirst, hsecond⟩, hstands,
    (readsBack_iff ⟨hfirst, hsecond⟩ hstands).mpr ⟨by decide, hwhole⟩⟩

/-- One declaration whose condition compares with two words in quotes. -/
def quotedWords : Block where
  first :=
    ⟨"a", [' '], [' '], "X.sp".toList,
      some ([' '], .comparison ['='] [' '] (.quoted '\x27' "a b".toList))⟩
  others := []

/-- The condition that is read ends with the first of the two words. -/
theorem not_readsBack_quotedWords :
    quotedWords.WellFormed ∧
      quotedWords.StandsIn "USE \x7ba\x7d => \x7b\x7bX.sp\x7d\x7d = 'a b' && \x7ba\x7d" ∧
      ¬ quotedWords.ReadsBack "USE \x7ba\x7d => \x7b\x7bX.sp\x7d\x7d = 'a b' && \x7ba\x7d" := by
  have hblank : Text.Padding [' '] := by decide
  refine ⟨⟨⟨by decide, hblank, hblank, by decide, by decide, ?_⟩, by simp [quotedWords]⟩, ?_, ?_⟩
  · intro spaced hspaced
    cases hspaced
    exact ⟨hblank, by decide, List.all_eq_true.mp (by decide), hblank, .inl rfl⟩
  · refine ⟨[], [' '], " \x7ba\x7d".toList, by decide, hblank, by decide, ?_, by decide⟩
    rw [List.singleton_append, separator_infix_append_cons (by decide), or_iff_left (by decide)]
    exact not_separator_infix fun c hc heq => absurd (heq ▸ hc) (by decide)
  · have hread : read "USE \x7ba\x7d => \x7b\x7bX.sp\x7d\x7d = 'a b' && \x7ba\x7d" =
        .ok ⟨[⟨"a", "\x7b\x7bX.sp\x7d\x7d", some "= 'a"⟩], "\x7ba\x7d",
          "USE \x7ba\x7d => \x7b\x7bX.sp\x7d\x7d = 'a b' && \x7ba\x7d"⟩ := by decide
    intro hback
    obtain ⟨clause, hclause, hdeclarations⟩ := hback
    rw [hread] at hclause
    cases hclause
    exact absurd hdeclarations (by decide)

end Placeholder.Clause
