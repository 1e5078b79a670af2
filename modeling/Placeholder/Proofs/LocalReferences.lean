import Mathlib
import Placeholder.Proofs.FilledStatement

/-!
# Local references beside placeholders

A statement has literals, local references in single braces and placeholders in double braces. A
placeholder whose content is a word holds a local reference between its outer braces: the name
counts as used, and a value of that name takes the place of the content and of the inner braces.
The placeholder survives only where the value's text is that inner reference again. Nothing of this
can cancel out: a statement with one altered placeholder is not what it should be.
-/

namespace Placeholder.Clause

inductive StatementPart where
  | literal (text : String)
  | reference (name : String)
  | placeholder (content : String)
  deriving DecidableEq, Repr

namespace StatementPart

def WellFormed : StatementPart → Prop
  | literal text => Template.BraceFree text.toList
  | reference name => IsName name
  | placeholder content => Template.BraceFree content.toList

instance (part : StatementPart) : Decidable part.WellFormed :=
  match part with
  | literal text => inferInstanceAs (Decidable (Template.BraceFree text.toList))
  | reference name => inferInstanceAs (Decidable (IsName name))
  | placeholder content => inferInstanceAs (Decidable (Template.BraceFree content.toList))

def text : StatementPart → List Char
  | literal text => text.toList
  | reference name => Clause.reference name
  | placeholder content => Template.embrace content.toList

/-- The part with the values known to a statement: a local reference gives way, all else stays. -/
def resolved (values : Entries Value) : StatementPart → List Char
  | literal text => text.toList
  | reference name =>
    match values.get? name with
    | some v => (statementText v).toList
    | none => Clause.reference name
  | placeholder content => Template.embrace content.toList

/-- The pieces that are read where the part stands. -/
def pieces : StatementPart → List Piece
  | literal text => text.toList.map .char
  | reference name => [.reference name.toList]
  | placeholder content =>
    if IsName content then [.char '\x7b', .reference content.toList, .char '\x7d']
    else (Template.embrace content.toList).map .char

def name? : StatementPart → Option String
  | literal _ => none
  | reference name => some name
  | placeholder content => if IsName content then some content else none

def filled (values : Entries Value) (part : StatementPart) : List Char :=
  part.pieces.flatMap (substitutePiece values)

end StatementPart

def statementOf (parts : List StatementPart) : String :=
  String.ofList (parts.flatMap StatementPart.text)

/-! ### Reading the parts -/

/-- Of two opening braces the first opens no local reference. -/
theorem takeReference?_brace_brace (cs : List Char) :
    takeReference? ('\x7b' :: '\x7b' :: cs) = none := by
  cases htake : takeReference? ('\x7b' :: '\x7b' :: cs) with
  | none => rfl
  | some found =>
    obtain ⟨hname, heq⟩ := takeReference?_eq_some htake
    rw [reference_append] at heq
    have hbrace := (List.cons.inj heq).2
    cases hcs : (String.ofList found.1).toList with
    | nil => exact absurd hcs hname.1
    | cons c name =>
      rw [hcs, List.cons_append] at hbrace
      have hfree := hname.braceFree c (hcs ▸ List.mem_cons_self)
      exact absurd (List.cons.inj hbrace).1.symm hfree.1

theorem takeReference?_of_not_isName {content : String}
    (hfree : Template.BraceFree content.toList) (hcontent : ¬ IsName content) (rest : List Char) :
    takeReference? (reference content ++ rest) = none := by
  cases htake : takeReference? (reference content ++ rest) with
  | none => rfl
  | some found =>
    obtain ⟨hname, heq⟩ := takeReference?_eq_some htake
    rw [reference_append, reference_append] at heq
    have hcontents := Template.eq_of_append_close hfree.not_mem_close
      hname.braceFree.not_mem_close (List.cons.inj heq).2
    rw [String.toList_inj] at hcontents
    exact absurd (hcontents ▸ hname) hcontent

theorem embrace_eq (content : String) :
    Template.embrace content.toList = '\x7b' :: (reference content ++ ['\x7d']) := by
  simp [Template.embrace, reference]

theorem pieces_text {part : StatementPart} (h : part.WellFormed) (rest : List Char) :
    pieces (part.text ++ rest) = part.pieces ++ pieces rest := by
  cases part with
  | literal text => exact pieces_append_of_braceFree h rest
  | reference name => exact pieces_reference h rest
  | placeholder content =>
    have houter : pieces (Template.embrace content.toList ++ rest) =
        .char '\x7b' :: pieces (reference content ++ '\x7d' :: rest) := by
      rw [Template.embrace_append, reference_append,
        pieces_cons_of_none (takeReference?_brace_brace _)]
    have hclose : ∀ cs, pieces ('\x7d' :: cs) = .char '\x7d' :: pieces cs :=
      fun cs => pieces_cons_of_none (takeReference?_of_ne (by decide) cs)
    by_cases hname : IsName content
    · simp [StatementPart.text, StatementPart.pieces, hname, houter, pieces_reference, hclose]
    · have hinner := takeReference?_of_not_isName h hname ('\x7d' :: rest)
      rw [reference_append] at houter hinner
      rw [StatementPart.text, houter, pieces_cons_of_none hinner, pieces_append_of_braceFree h,
        hclose, hclose, StatementPart.pieces, if_neg hname]
      simp [Template.embrace]

theorem pieces_flatMap_text {parts : List StatementPart} (h : ∀ part ∈ parts, part.WellFormed) :
    pieces (parts.flatMap StatementPart.text) = parts.flatMap StatementPart.pieces := by
  induction parts with
  | nil => rfl
  | cons part parts ih =>
    obtain ⟨hpart, hparts⟩ := List.forall_mem_cons.mp h
    rw [List.flatMap_cons, List.flatMap_cons, pieces_text hpart, ih hparts]

/-! ### The names in use -/

theorem referenceNames_statementOf {parts : List StatementPart}
    (h : ∀ part ∈ parts, part.WellFormed) :
    (referenceNames (statementOf parts)).map String.ofList =
      parts.filterMap StatementPart.name? := by
  rw [referenceNames, statementOf, String.toList_ofList, pieces_flatMap_text h]
  clear h
  induction parts with
  | nil => rfl
  | cons part parts ih =>
    rw [List.flatMap_cons, List.filterMap_append, List.map_append, ih]
    cases part with
    | literal text =>
      rw [List.filterMap_cons_none rfl]
      simp [StatementPart.pieces]
    | reference name => simp [StatementPart.pieces, StatementPart.name?]
    | placeholder content =>
      by_cases hname : IsName content <;>
        simp [StatementPart.pieces, StatementPart.name?, hname]

theorem mem_usedNames_statementOf {parts : List StatementPart}
    (h : ∀ part ∈ parts, part.WellFormed) (name : String) :
    name ∈ usedNames (statementOf parts) ↔
      .reference name ∈ parts ∨ .placeholder name ∈ parts ∧ IsName name := by
  rw [usedNames, List.mem_eraseDups, referenceNames_statementOf h, List.mem_filterMap]
  constructor
  · rintro ⟨part, hpart, hname⟩
    cases part with
    | literal text => cases hname
    | reference name =>
      cases hname
      exact .inl hpart
    | placeholder content =>
      rw [StatementPart.name?, Option.ite_none_right_eq_some] at hname
      obtain ⟨hword, hcontent⟩ := hname
      cases hcontent
      exact .inr ⟨hpart, hword⟩
  · rintro (hpart | ⟨hpart, hword⟩)
    · exact ⟨_, hpart, rfl⟩
    · exact ⟨_, hpart, if_pos hword⟩

/-! ### Filling the parts -/

section Filling

variable {values : Entries Value} {parts : List StatementPart}

theorem flatMap_map_char (values : Entries Value) (cs : List Char) :
    (cs.map Piece.char).flatMap (substitutePiece values) = cs := by
  simp [List.flatMap_map, substitutePiece]

theorem substitute_statementOf (h : ∀ part ∈ parts, part.WellFormed) (values : Entries Value) :
    substitute (statementOf parts) values = String.ofList (parts.flatMap fun part =>
      part.filled values) := by
  rw [substitute, statementOf, String.toList_ofList, pieces_flatMap_text h, List.flatMap_assoc]
  rfl

theorem filled_placeholder {content : String} (hname : IsName content) {v : Value}
    (h : values.get? content = some v) :
    (StatementPart.placeholder content).filled values =
      '\x7b' :: ((statementText v).toList ++ ['\x7d']) := by
  simp [StatementPart.filled, StatementPart.pieces, hname, substitutePiece, h]

theorem filled_eq_resolved {part : StatementPart}
    (h : ∀ content, part = .placeholder content → IsName content → values.get? content = none) :
    part.filled values = part.resolved values := by
  cases part with
  | literal text => exact flatMap_map_char values _
  | reference name =>
    simp only [StatementPart.filled, StatementPart.pieces, List.flatMap_singleton, substitutePiece,
      String.ofList_toList, StatementPart.resolved]
    rfl
  | placeholder content =>
    rw [StatementPart.filled, StatementPart.pieces, StatementPart.resolved]
    split
    · rename_i hname
      simp [substitutePiece, h content rfl hname, Template.embrace]
    · exact flatMap_map_char values _

theorem filled_eq_resolved_iff {part : StatementPart} :
    part.filled values = part.resolved values ↔
      ∀ content, part = .placeholder content → IsName content → ∀ v,
        values.get? content = some v → (statementText v).toList = reference content := by
  constructor
  · rintro heq content rfl hname v hv
    rw [filled_placeholder hname hv, StatementPart.resolved, embrace_eq] at heq
    exact List.append_cancel_right (List.cons.inj heq).2
  · intro h
    by_cases hvalue : ∃ content v, part = .placeholder content ∧ IsName content ∧
        values.get? content = some v
    · obtain ⟨content, v, rfl, hname, hv⟩ := hvalue
      rw [filled_placeholder hname hv, h content rfl hname v hv, StatementPart.resolved, embrace_eq]
    · apply filled_eq_resolved
      intro content hpart hname
      rw [Option.eq_none_iff_forall_ne_some]
      exact fun v hv => hvalue ⟨content, v, hpart, hname, hv⟩

/-- An altered part is a placeholder with another text between its outer braces. -/
theorem exists_of_filled_ne {part : StatementPart} (h : part.WellFormed)
    (hne : part.filled values ≠ part.resolved values) :
    ∃ content inner, Template.BraceFree content ∧ inner ≠ '\x7b' :: (content ++ ['\x7d']) ∧
      part.resolved values = '\x7b' :: '\x7b' :: (content ++ ['\x7d', '\x7d']) ∧
      part.filled values = '\x7b' :: (inner ++ ['\x7d']) := by
  rw [Ne, filled_eq_resolved_iff] at hne
  push Not at hne
  obtain ⟨content, rfl, hname, v, hv, hinner⟩ := hne
  exact ⟨content.toList, (statementText v).toList, h, hinner, rfl, filled_placeholder hname hv⟩

/-! ### No alteration makes up for another -/

/-- A text in front of a common part stands behind it with its characters in another order. -/
theorem exists_perm_of_append_eq {shift text rest rest' : List Char}
    (h : text ++ rest = shift ++ (text ++ rest')) :
    ∃ shift', shift'.Perm shift ∧ rest = shift' ++ rest' := by
  rw [← List.append_assoc] at h
  rcases List.append_eq_append_iff.mp h with ⟨shift', htext, hrest⟩ | ⟨extra, htext, hrest⟩
  · have hperm : (text ++ shift').Perm (text ++ shift) := htext ▸ List.perm_append_comm
    exact ⟨shift', (List.perm_append_left_iff text).mp hperm, hrest⟩
  · have hlen := congrArg List.length htext
    simp only [List.length_append] at hlen
    obtain rfl : shift = [] := List.eq_nil_of_length_eq_zero (by omega)
    obtain rfl : extra = [] := List.eq_nil_of_length_eq_zero (by omega)
    exact ⟨[], .nil, by simpa using hrest.symm⟩

theorem resolved_ne_append_filled (h : ∀ part ∈ parts, part.WellFormed) {shift : List Char}
    (hclose : '\x7d' ∈ shift) :
    (parts.flatMap fun part => part.resolved values) ≠
      shift ++ parts.flatMap fun part => part.filled values := by
  induction parts generalizing shift with
  | nil =>
    intro heq
    rw [List.flatMap_nil, List.flatMap_nil, List.append_nil] at heq
    rw [← heq] at hclose
    cases hclose
  | cons part parts ih =>
    obtain ⟨hpart, hparts⟩ := List.forall_mem_cons.mp h
    intro heq
    rw [List.flatMap_cons, List.flatMap_cons] at heq
    by_cases hsame : part.filled values = part.resolved values
    · rw [hsame] at heq
      obtain ⟨shift', hperm, hrest⟩ := exists_perm_of_append_eq heq
      exact ih hparts (hperm.mem_iff.mpr hclose) hrest
    · obtain ⟨content, inner, hfree, -, hresolved, hfilled⟩ := exists_of_filled_ne hpart hsame
      obtain ⟨front, back, rfl, hfront⟩ := List.eq_append_cons_of_mem hclose
      have hcontent : '\x7d' ∉ '\x7b' :: '\x7b' :: content := by
        simpa using hfree.not_mem_close
      rw [hresolved, hfilled] at heq
      -- The shift reaches as far as the first closing brace of the placeholder.
      have heq : ('\x7b' :: '\x7b' :: content) ++ '\x7d' :: '\x7d' ::
          (parts.flatMap fun part => part.resolved values) = front ++ '\x7d' ::
            (back ++ '\x7b' :: (inner ++ ['\x7d']) ++
              parts.flatMap fun part => part.filled values) := by
        simpa using heq
      obtain rfl := Template.eq_of_append_close hcontent hfront heq
      have htail := (List.cons.inj (List.append_cancel_left heq)).2
      cases back with
      | nil => exact absurd (List.cons.inj htail).1 (by decide)
      | cons c back => exact ih hparts (by simp) (List.cons.inj htail).2

theorem filled_ne_cons_resolved (h : ∀ part ∈ parts, part.WellFormed) :
    (parts.flatMap fun part => part.filled values) ≠
      '\x7d' :: parts.flatMap fun part => part.resolved values := by
  induction parts with
  | nil => simp
  | cons part parts ih =>
    obtain ⟨hpart, hparts⟩ := List.forall_mem_cons.mp h
    intro heq
    rw [List.flatMap_cons, List.flatMap_cons] at heq
    by_cases hsame : part.filled values = part.resolved values
    · rw [hsame] at heq
      obtain ⟨shift, hperm, hrest⟩ :=
        exists_perm_of_append_eq (heq.trans List.singleton_append.symm)
      rw [List.perm_singleton.mp hperm] at hrest
      exact ih hparts hrest
    · obtain ⟨content, inner, -, -, -, hfilled⟩ := exists_of_filled_ne hpart hsame
      rw [hfilled] at heq
      exact absurd (List.cons.inj heq).1 (by decide)

/-- What follows an altered placeholder does not make up for it, neither where the text that took
its place is shorter nor where it is longer. -/
theorem altered_ne (h : ∀ part ∈ parts, part.WellFormed) {content inner : List Char}
    (hfree : Template.BraceFree content) (hinner : inner ≠ '\x7b' :: (content ++ ['\x7d'])) :
    '\x7b' :: (inner ++ ['\x7d']) ++ (parts.flatMap fun part => part.filled values) ≠
      '\x7b' :: '\x7b' :: (content ++ ['\x7d', '\x7d']) ++
        parts.flatMap fun part => part.resolved values := by
  intro heq
  have hcontent : '\x7d' ∉ '\x7b' :: content := by
    simpa using hfree.not_mem_close
  have heq : inner ++ '\x7d' :: (parts.flatMap fun part => part.filled values) =
      ('\x7b' :: content) ++ '\x7d' :: '\x7d' ::
        (parts.flatMap fun part => part.resolved values) := by
    simpa using heq
  rcases List.append_eq_append_iff.mp heq with ⟨short, hleft, htail⟩ | ⟨long, rfl, htail⟩
  · cases short with
    | nil => exact filled_ne_cons_resolved h (List.cons.inj htail).2
    | cons c short =>
      rw [List.cons_append] at htail
      rw [hleft, ← (List.cons.inj htail).1] at hcontent
      exact hcontent (by simp)
  · match long with
    | [] => exact filled_ne_cons_resolved h (List.cons.inj htail).2.symm
    | [c] =>
      obtain ⟨rfl, -⟩ := List.cons.inj htail
      exact hinner rfl
    | c :: d :: long =>
      have hrest := (List.cons.inj (List.cons.inj htail).2).2
      have hclose : '\x7d' ∈ long ++ ['\x7d'] := by simp
      apply resolved_ne_append_filled h hclose
      rw [hrest, List.append_assoc]
      rfl

theorem flatMap_filled_eq_iff (h : ∀ part ∈ parts, part.WellFormed) :
    (parts.flatMap fun part => part.filled values) =
        (parts.flatMap fun part => part.resolved values) ↔
      ∀ part ∈ parts, part.filled values = part.resolved values := by
  constructor
  · intro heq
    induction parts with
    | nil => simp
    | cons part parts ih =>
      obtain ⟨hpart, hparts⟩ := List.forall_mem_cons.mp h
      rw [List.flatMap_cons, List.flatMap_cons] at heq
      by_cases hsame : part.filled values = part.resolved values
      · rw [hsame, List.append_cancel_left_eq] at heq
        exact List.forall_mem_cons.mpr ⟨hsame, ih hparts heq⟩
      · obtain ⟨content, inner, hfree, hinner, hresolved, hfilled⟩ :=
          exists_of_filled_ne hpart hsame
        rw [hresolved, hfilled] at heq
        exact absurd heq (altered_ne hparts hfree hinner)
  · intro hsame
    exact List.flatMap_congr hsame

end Filling

/-! ### References and placeholders apart -/

/-- Local references alone are replaced, and the names in use are the names of these. -/
def KeepsApart (parts : List StatementPart) (values : Entries Value) : Prop :=
  substitute (statementOf parts) values =
      String.ofList (parts.flatMap fun part => part.resolved values) ∧
    ∀ name, name ∈ usedNames (statementOf parts) ↔ .reference name ∈ parts

theorem keepsApart_iff {parts : List StatementPart} (h : ∀ part ∈ parts, part.WellFormed)
    (values : Entries Value) :
    KeepsApart parts values ↔
      ∀ content, .placeholder content ∈ parts → IsName content →
        .reference content ∈ parts ∧
          ∀ v, values.get? content = some v → (statementText v).toList = reference content := by
  have htext : substitute (statementOf parts) values =
        String.ofList (parts.flatMap fun part => part.resolved values) ↔
      ∀ content, .placeholder content ∈ parts → IsName content → ∀ v,
        values.get? content = some v → (statementText v).toList = reference content := by
    rw [substitute_statementOf h, String.ofList_inj, flatMap_filled_eq_iff h]
    simp only [filled_eq_resolved_iff]
    constructor
    · exact fun hparts content hmem => hparts _ hmem content rfl
    · rintro hcontents part hmem content rfl
      exact hcontents content hmem
  have hnames : (∀ name, name ∈ usedNames (statementOf parts) ↔ .reference name ∈ parts) ↔
      ∀ content, .placeholder content ∈ parts → IsName content → .reference content ∈ parts := by
    simp only [mem_usedNames_statementOf h]
    constructor
    · exact fun hused content hmem hname => (hused content).mp (.inr ⟨hmem, hname⟩)
    · intro hcontents name
      constructor
      · rintro (hmem | ⟨hmem, hname⟩)
        · exact hmem
        · exact hcontents name hmem hname
      · exact .inl
  rw [KeepsApart, htext, hnames]
  constructor
  · rintro ⟨hvalues, hreferences⟩ content hmem hname
    exact ⟨hreferences content hmem hname, hvalues content hmem hname⟩
  · intro hboth
    exact ⟨fun content hmem hname => (hboth content hmem hname).2,
      fun content hmem hname => (hboth content hmem hname).1⟩

def invitation : List StatementPart :=
  [.literal "Dear ", .reference "who", .literal ", see ", .placeholder "User.page"]

theorem keepsApart_invitation :
    (∀ part ∈ invitation, part.WellFormed) ∧ KeepsApart invitation [("who", .string "Ann")] := by
  have hwell : ∀ part ∈ invitation, part.WellFormed := by decide
  refine ⟨hwell, (keepsApart_iff hwell _).mpr ?_⟩
  intro content hmem hname
  simp only [invitation, List.mem_cons, reduceCtorEq, StatementPart.placeholder.injEq, false_or,
    List.not_mem_nil, or_false] at hmem
  subst hmem
  exact absurd hname (by decide)

/-- The value of the name `a` is found in a placeholder that encloses this name. -/
theorem not_keepsApart_name :
    ¬ KeepsApart [.reference "b", .literal " ", .placeholder "a"]
      [("a", .string "x"), ("b", .string "y")] := by
  intro h
  have htext := h.1
  revert htext
  decide

end Placeholder.Clause
