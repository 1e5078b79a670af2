import Mathlib
import Placeholder.Proofs.WrittenDeclaration

/-!
# Clauses as they are written

A clause is written as the keyword, its block of declarations, the separator and the statement. The
search for the separator does not look at placeholders, so that a clause is read back exactly when
no declaration has the separator inside its expression or its condition.
-/

namespace Placeholder.Clause

/-! ### The separator inside declarations -/

/-- The text between the block and the statement of a clause. -/
def separator : List Char :=
  ['&', '&']

/-- The separator occurs in the expression or in the condition. -/
def Declaration.HasSeparator (d : Declaration) : Prop :=
  separator <:+: d.expression.toList ∨ ∃ condition ∈ d.condition, separator <:+: condition.toList

theorem not_separator_infix {cs : List Char} (h : ∀ c ∈ cs, c ≠ '&') : ¬ separator <:+: cs := by
  intro hinside
  exact h '&' (hinside.subset (by decide)) rfl

theorem separator_infix_append_cons {c : Char} (hc : c ≠ '&') (a b : List Char) :
    separator <:+: a ++ c :: b ↔ separator <:+: a ∨ separator <:+: b :=
  Text.infix_append_cons_iff (by simpa [separator] using hc) a b

theorem Declaration.WellWritten.separator_infix_text {d : Declaration} (h : d.WellWritten) :
    separator <:+: d.text ↔ d.HasSeparator := by
  have hword : Text.isWord '&' = false := by decide
  have hname : ¬ separator <:+: '\x7b' :: (d.name.toList ++ ['\x7d', ' ', '=', '>']) := by
    apply not_separator_infix
    intro c hc heq
    simp only [List.mem_cons, List.mem_append, List.not_mem_nil, or_false, heq] at hc
    rcases hc with hc | hc | hc | hc | hc | hc
    · exact absurd hc (by decide)
    · rw [h.name_word '&' hc] at hword
      contradiction
    all_goals exact absurd hc (by decide)
  have htext : d.text = '\x7b' :: (d.name.toList ++ ['\x7d', ' ', '=', '>']) ++
      ' ' :: (d.expression.toList ++ conditionTail d.condition) := by
    simp [Declaration.text]
  rw [htext, separator_infix_append_cons (by decide), or_iff_right hname]
  unfold Declaration.HasSeparator
  cases d.condition with
  | none => simp [conditionTail]
  | some condition => simp [conditionTail, separator_infix_append_cons]

theorem separator_infix_blockText {ds : List Declaration} (hds : ∀ d ∈ ds, d.WellWritten) :
    separator <:+: blockText ds ↔ ∃ d ∈ ds, d.HasSeparator := by
  induction ds with
  | nil => simp [blockText, separator]
  | cons d ds ih =>
    have hd := (hds d List.mem_cons_self).separator_infix_text
    cases ds with
    | nil => simp [blockText, hd]
    | cons d' ds =>
      have hrest := ih fun e he => hds e (List.mem_cons_of_mem d he)
      have hblank : separator <:+: ' ' :: blockText (d' :: ds) ↔
          separator <:+: blockText (d' :: ds) := by
        have happend := separator_infix_append_cons (by decide : ' ' ≠ '&') []
          (blockText (d' :: ds))
        rwa [or_iff_right (by decide), List.nil_append] at happend
      rw [blockText_cons_cons, separator_infix_append_cons (by decide), hblank, hd, hrest]
      exact (List.exists_mem_cons_iff _ d (d' :: ds)).symm

/-! ### The first separator -/

theorem afterSeparator?_eq_some_iff {cs rest : List Char} :
    afterSeparator? cs = some rest ↔ Text.trimStart Text.isBlank cs = separator ++ rest :=
  Text.after?_eq_some_iff separator (skipBlank cs) rest

theorem afterSeparator?_eq_none_iff {cs : List Char} :
    afterSeparator? cs = none ↔ ¬ separator <+: Text.trimStart Text.isBlank cs :=
  Text.after?_eq_none_iff separator (skipBlank cs)

/-- A text that ends without white space is the block in front of a separator that begins behind
it, unless one begins before. -/
theorem splitAtSeparator?_append {block gap : List Char} {d : Char} (hd : Text.isBlank d = false)
    (hgap : Text.Padding gap) (h : ¬ separator <:+: block ++ [d] ++ (gap ++ ['&']))
    (rest : List Char) :
    splitAtSeparator? (block ++ [d] ++ (gap ++ (separator ++ rest))) =
      some (block ++ [d], rest) := by
  induction block with
  | nil =>
    have hafter : afterSeparator? (gap ++ (separator ++ rest)) = some rest := by
      rw [afterSeparator?_eq_some_iff, Text.trimStart_append_of_padding hgap]
      exact Text.trimStart_cons_of_not_blank (by decide) ('&' :: rest)
    rw [List.nil_append, List.singleton_append, splitAtSeparator?, hafter]
  | cons c block ih =>
    rw [List.cons_append, List.cons_append, List.infix_cons_iff, not_or] at h
    have hpadding : ¬ Text.Padding (block ++ [d]) := by
      intro hpadding
      rw [hpadding d (by simp)] at hd
      contradiction
    obtain ⟨front, hfront⟩ : Text.trimStart Text.isBlank (block ++ [d]) <:+ block ++ [d] :=
      List.dropWhile_suffix Text.isBlank
    have hvisible : Text.trimStart Text.isBlank (block ++ [d]) ≠ [] := fun hnil =>
      hpadding (Text.trim_eq_nil_iff.mp (by rw [Text.trim, Text.trimBy, hnil]; rfl))
    have hlen := List.length_pos_iff.mpr hvisible
    have hnone : afterSeparator? (block ++ [d] ++ (gap ++ (separator ++ rest))) = none := by
      rw [afterSeparator?_eq_none_iff, Text.trimStart_append_of_not_padding hpadding]
      intro hopens
      -- The separator would lie in front of the second character of the one that is written.
      have hinside : separator <+:
          Text.trimStart Text.isBlank (block ++ [d]) ++ (gap ++ ['&']) := by
        refine List.prefix_of_prefix_length_le hopens ⟨'&' :: rest, by simp [separator]⟩ ?_
        simp only [separator, List.length_append, List.length_cons, List.length_nil]
        omega
      apply h.2
      rw [← hfront, List.append_assoc]
      exact hinside.isInfix.trans (List.suffix_append _ _).isInfix
    have hcons : c :: block ++ [d] ++ (gap ++ (separator ++ rest)) =
        c :: (block ++ [d] ++ (gap ++ (separator ++ rest))) := rfl
    rw [hcons, splitAtSeparator?, hnone, ih h.2]
    rfl

/-- The search stops at a separator behind the first character at the latest: what follows that one
ends the text that the search takes for the statement. -/
theorem exists_splitAtSeparator?_of_separator {front : List Char} (hfront : front ≠ [])
    (rest : List Char) :
    ∃ block statement, splitAtSeparator? (front ++ (separator ++ rest)) = some (block, statement) ∧
      rest <:+ statement := by
  induction front with
  | nil => exact absurd rfl hfront
  | cons c front ih =>
    rw [List.cons_append, splitAtSeparator?]
    cases hafter : afterSeparator? (front ++ (separator ++ rest)) with
    | some statement =>
      refine ⟨[c], statement, rfl, ?_⟩
      obtain ⟨w, hw⟩ :=
        Text.exists_trimStart_append_cons (by decide : Text.isBlank '&' = false) front ('&' :: rest)
      have heq : w ++ (separator ++ rest) = separator ++ statement :=
        hw.symm.trans (afterSeparator?_eq_some_iff.mp hafter)
      have hlen := congrArg List.length heq
      simp only [List.length_append] at hlen
      have hrest : rest <:+ separator ++ statement := by
        rw [← heq, ← List.append_assoc]
        exact List.suffix_append (w ++ separator) rest
      exact List.suffix_of_suffix_length_le hrest (List.suffix_append separator statement)
        (by omega)
    | none =>
      have hne : front ≠ [] := by
        rintro rfl
        cases hafter
      obtain ⟨block, statement, hsplit, hsuffix⟩ := ih hne
      refine ⟨c :: block, statement, ?_, hsuffix⟩
      rw [hsplit]
      rfl

/-! ### Reading a clause back -/

def written (ds : List Declaration) (statement : String) : String :=
  String.ofList ("USE ".toList ++ (blockText ds ++ ' ' :: (separator ++ ' ' :: statement.toList)))

theorem toList_written (ds : List Declaration) (statement : String) :
    (written ds statement).toList =
      "USE ".toList ++ (blockText ds ++ ' ' :: (separator ++ ' ' :: statement.toList)) :=
  String.toList_ofList

theorem duplicate?_eq_none_iff {seen : List String} {ds : List Declaration} :
    duplicate? seen ds = none ↔ (ds.map Declaration.name).Nodup ∧ ∀ d ∈ ds, d.name ∉ seen := by
  induction ds generalizing seen with
  | nil => simp [duplicate?]
  | cons d ds ih =>
    rw [duplicate?]
    by_cases hd : d.name ∈ seen
    · simp [hd]
    · have hcontains : seen.contains d.name = false := by simpa using hd
      have hlater : (∀ e ∈ ds, e.name ∉ d.name :: seen) ↔
          d.name ∉ ds.map Declaration.name ∧ ∀ e ∈ ds, e.name ∉ seen := by
        simp only [List.mem_cons, not_or, List.mem_map, not_exists, not_and]
        exact ⟨fun h => ⟨fun e he heq => (h e he).1 heq, fun e he => (h e he).2⟩,
          fun h e he => ⟨fun heq => h.1 e he heq, h.2 e he⟩⟩
      rw [hcontains, if_neg (by decide), ih, hlater, List.map_cons, List.nodup_cons,
        List.forall_mem_cons]
      tauto

theorem split?_of_split {before rest block statement : List Char} {c : Char}
    (hbefore : Text.Padding before) (hc : Text.isBlank c = false)
    (h : splitAtSeparator? (c :: rest) = some (block, statement)) :
    split? ("USE ".toList ++ (before ++ c :: rest)) =
      some (Text.trim block, Text.trim statement) := by
  have hkeyword : Text.after? "USE".toList ("USE ".toList ++ (before ++ c :: rest)) =
      some (' ' :: before ++ c :: rest) := rfl
  have hpadding : Text.Padding (' ' :: before) := List.forall_mem_cons.mpr ⟨by decide, hbefore⟩
  have hblank : takeRun? Text.isBlank (' ' :: before ++ c :: rest) =
      some (' ' :: before, c :: rest) :=
    takeRun?_append (List.cons_ne_nil _ _) hpadding (stops_cons.mpr hc)
  simp only [split?, hkeyword, hblank, Option.bind_eq_bind, Option.bind_some, h]

theorem trim_cons_blank {cs : List Char} (h : Text.Trimmed cs) : Text.trim (' ' :: cs) = cs := by
  have hblank : Text.Padding [' '] := by decide
  have hpadded := Text.trim_padded hblank Text.padding_nil cs
  rw [List.append_nil] at hpadded
  exact hpadded.trans h

/-- A text behind a separator that ends in a statement behind another one is longer than the
statement, also without white space around it. -/
theorem trim_ne_of_separator_suffix {cs statement : List Char} (hends : Text.EndsVisible statement)
    (hsuffix : separator ++ ' ' :: statement <:+ cs) : Text.trim cs ≠ statement := by
  obtain ⟨front, rfl⟩ := hsuffix
  obtain ⟨w, hw⟩ := Text.exists_trimStart_append_cons (by decide : Text.isBlank '&' = false) front
    ('&' :: ' ' :: statement)
  have htrim : Text.trim (front ++ (separator ++ ' ' :: statement)) =
      w ++ (separator ++ ' ' :: statement) := by
    rw [Text.trim, Text.trimBy, show Text.trimStart Text.isBlank
      (front ++ (separator ++ ' ' :: statement)) = w ++ (separator ++ ' ' :: statement) from hw]
    exact (((hends.append_left [' ']).append_left separator).append_left w).trimEnd_eq
  intro heq
  have hlen := congrArg List.length (htrim.symm.trans heq)
  simp only [List.length_append, List.length_cons] at hlen
  omega

theorem trimmed_written {ds : List Declaration} {statement : String}
    (hends : Text.EndsVisible statement.toList) : Text.Trimmed (written ds statement).toList := by
  have hwritten := (((hends.append_left [' ']).append_left separator).append_left
    [' ']).append_left ("USE ".toList ++ blockText ds)
  rw [toList_written, ← List.append_assoc]
  exact hwritten.trimmed_cons (by decide)

theorem parts_of_isClause {template : String} (h : isClause template = true) :
    parts template =
      match split? (Text.trim template.toList) with
      | none => .error .missingSeparator
      | some (block, tail) =>
        if tail.isEmpty then .error .emptyStatement
        else if (readDeclarations block).isEmpty then .error .malformedDeclaration
        else
          match duplicate? [] (readDeclarations block) with
          | some name => .error (.duplicateName name)
          | none => .ok (readDeclarations block, String.ofList tail) := by
  unfold parts
  rw [h]
  exact rfl

/-- The parts of a clause, from the two texts that the first separator leaves. -/
theorem parts_of_split {template : String} {before rest block tail : List Char} {c : Char}
    (hbefore : Text.Padding before) (hc : Text.isBlank c = false)
    (htemplate : Text.trim template.toList = "USE ".toList ++ (before ++ c :: rest))
    (hsplit : splitAtSeparator? (c :: rest) = some (block, tail)) :
    parts template =
      if (Text.trim tail).isEmpty then .error .emptyStatement
      else if (readDeclarations (Text.trim block)).isEmpty then .error .malformedDeclaration
      else
        match duplicate? [] (readDeclarations (Text.trim block)) with
        | some name => .error (.duplicateName name)
        | none => .ok (readDeclarations (Text.trim block), String.ofList (Text.trim tail)) := by
  have hclause : isClause template = true := by
    rw [isClause, htemplate, Text.startsWith_iff]
    exact List.prefix_append _ _
  rw [parts_of_isClause hclause, htemplate, split?_of_split hbefore hc hsplit]

/-- The parts of a clause whose first separator is the one behind the block. -/
theorem parts_of_block {template : String} {before block after statement : List Char}
    (hbefore : Text.Padding before) (hafter : Text.Padding after)
    (hopens : ∃ rest, block = '\x7b' :: rest) (hends : Text.EndsVisible block)
    (hstatement : ¬ Text.Padding statement) (hfree : ¬ separator <:+: block ++ (after ++ ['&']))
    (htemplate : Text.trim template.toList =
      "USE ".toList ++ (before ++ (block ++ (after ++ (separator ++ statement))))) :
    parts template =
      if (readDeclarations block).isEmpty then .error .malformedDeclaration
      else
        match duplicate? [] (readDeclarations block) with
        | some name => .error (.duplicateName name)
        | none => .ok (readDeclarations block, String.ofList (Text.trim statement)) := by
  obtain ⟨rest, hblock⟩ := hopens
  have hopen : Text.isBlank '\x7b' = false := by decide
  have htrim : Text.trim block = block := by
    rw [hblock] at hends ⊢
    exact hends.trimmed_cons hopen
  obtain ⟨start, d, hlast, hd⟩ := hends
  have hsplit : splitAtSeparator? ('\x7b' :: (rest ++ (after ++ (separator ++ statement)))) =
      some (block, statement) := by
    rw [hlast] at hfree
    rw [← List.cons_append, ← hblock, hlast]
    exact splitAtSeparator?_append hd hafter hfree statement
  have hvisible : (Text.trim statement).isEmpty = false :=
    List.isEmpty_eq_false_iff.mpr fun hnil => hstatement (Text.trim_eq_nil_iff.mp hnil)
  have htext : before ++ (block ++ (after ++ (separator ++ statement))) =
      before ++ '\x7b' :: (rest ++ (after ++ (separator ++ statement))) := by
    rw [hblock, List.cons_append]
  rw [htext] at htemplate
  rw [parts_of_split hbefore hopen htemplate hsplit, htrim, hvisible]
  rfl

/-- Without a separator in the block the parts of a written clause are the parts it was written
from. -/
theorem parts_written {ds : List Declaration} {statement : String} (hne : ds ≠ [])
    (hds : ∀ d ∈ ds, d.WellWritten) (hnodup : (ds.map Declaration.name).Nodup)
    (hends : Text.EndsVisible statement.toList) (htrimmed : Text.Trimmed statement.toList)
    (hnone : ¬ separator <:+: blockText ds) :
    parts (written ds statement) = .ok (ds, statement) := by
  have hblank : Text.Padding [' '] := by decide
  have hfree : ¬ separator <:+: blockText ds ++ ([' '] ++ ['&']) := by
    rw [List.singleton_append, separator_infix_append_cons (by decide), or_iff_left (by decide)]
    exact hnone
  have hstatement : ¬ Text.Padding (' ' :: statement.toList) := by
    obtain ⟨start, d, hlast, hd⟩ := hends
    intro hpadding
    rw [hpadding d (by simp [hlast])] at hd
    contradiction
  have htemplate : Text.trim (written ds statement).toList = "USE ".toList ++
      ([] ++ (blockText ds ++ ([' '] ++ (separator ++ ' ' :: statement.toList)))) := by
    rw [trimmed_written hends, toList_written]
    rfl
  have hnonempty : ds.isEmpty = false := List.isEmpty_eq_false_iff.mpr hne
  have hduplicate : duplicate? [] ds = none :=
    duplicate?_eq_none_iff.mpr ⟨hnodup, fun d _ => List.not_mem_nil⟩
  rw [parts_of_block Text.padding_nil hblank (exists_blockText_cons hne)
    (endsVisible_blockText hne hds) hstatement hfree htemplate, readDeclarations_blockText hds,
    hnonempty, hduplicate, trim_cons_blank htrimmed, String.ofList_toList]
  rfl

/-- With a separator in the block, whatever statement comes back is another one. -/
theorem parts_written_ne {ds : List Declaration} {statement : String} (hne : ds ≠ [])
    (hends : Text.EndsVisible statement.toList) (hsep : separator <:+: blockText ds)
    (ds' : List Declaration) : parts (written ds statement) ≠ .ok (ds', statement) := by
  obtain ⟨rest, hblock⟩ := exists_blockText_cons hne
  have hopen : Text.isBlank '\x7b' = false := by decide
  obtain ⟨front, back, hinside⟩ := hsep
  have hfront : front ≠ [] := by
    rintro rfl
    rw [hblock] at hinside
    exact absurd (List.cons.inj hinside).1 (by decide)
  have hrest : '\x7b' :: (rest ++ ' ' :: (separator ++ ' ' :: statement.toList)) =
      blockText ds ++ ' ' :: (separator ++ ' ' :: statement.toList) := by
    rw [hblock, List.cons_append]
  obtain ⟨block, tail, hsplit, hsuffix⟩ := exists_splitAtSeparator?_of_separator hfront
    (back ++ ' ' :: (separator ++ ' ' :: statement.toList))
  have hcut : splitAtSeparator? ('\x7b' ::
      (rest ++ ' ' :: (separator ++ ' ' :: statement.toList))) = some (block, tail) := by
    rw [hrest, ← hinside, List.append_assoc, List.append_assoc]
    exact hsplit
  have htail : separator ++ ' ' :: statement.toList <:+ tail :=
    ((List.suffix_cons ' ' _).trans (List.suffix_append back _)).trans hsuffix
  have hother := trim_ne_of_separator_suffix hends htail
  have htemplate : Text.trim (written ds statement).toList = "USE ".toList ++
      ([] ++ '\x7b' :: (rest ++ ' ' :: (separator ++ ' ' :: statement.toList))) := by
    rw [trimmed_written hends, toList_written, hrest]
    rfl
  rw [parts_of_split Text.padding_nil hopen htemplate hcut]
  intro hok
  split at hok
  · cases hok
  · split at hok
    · cases hok
    · split at hok
      · cases hok
      · have hstatement := (Prod.mk.inj (Except.ok.inj hok)).2
        apply hother
        rw [← hstatement, String.toList_ofList]

/-- A written clause is read back exactly when no declaration has a separator of its own: the
search for the separator stops at one inside a placeholder or a condition. The statement may have
any. -/
theorem read_written_iff {ds : List Declaration} {statement : String} (hne : ds ≠ [])
    (hds : ∀ d ∈ ds, d.WellWritten) (hnodup : (ds.map Declaration.name).Nodup)
    (hstatement : statement.toList ≠ []) (htrimmed : Text.Trimmed statement.toList) :
    read (written ds statement) = .ok ⟨ds, statement, written ds statement⟩ ↔
      ∀ d ∈ ds, ¬ d.HasSeparator := by
  have hends := htrimmed.endsVisible hstatement
  have hblock := separator_infix_blockText hds
  constructor
  · intro hread d hd hsep
    refine parts_written_ne hne hends (hblock.mpr ⟨d, hd, hsep⟩) ds ?_
    unfold read at hread
    cases hparts : parts (written ds statement) with
    | ok found =>
      rw [hparts] at hread
      obtain ⟨declarations, text⟩ := found
      have hclause := Except.ok.inj hread
      rw [Clause.mk.injEq] at hclause
      rw [hclause.1, hclause.2.1]
    | error fault =>
      rw [hparts] at hread
      cases hread
  · intro hnone
    have hfree : ¬ separator <:+: blockText ds := by
      rw [hblock]
      rintro ⟨d, hd, hsep⟩
      exact hnone d hd hsep
    rw [read, parts_written hne hds hnodup hends htrimmed hfree]

def ofAge : Declaration :=
  ⟨"age", "\x7b\x7buser.age\x7d\x7d", some ">= 18"⟩

/-- A declaration whose expression is a temporal call of two conditions. -/
def whenOpen : Declaration :=
  ⟨"ok", "\x7b\x7bTEMPORAL:isDue('weekday && 08:00-18:00')\x7d\x7d", none⟩

theorem wellWritten_ofAge : ofAge.WellWritten where
  name_ne_nil := by decide
  name_word := List.all_eq_true.mp (by decide)
  expression := ⟨"user.age".toList, by decide, by decide, by decide⟩
  condition := by
    rintro condition ⟨⟩
    have hoperator : ∀ c ∈ ">=".toList, isOperatorChar c = true :=
      List.all_eq_true.mp (by decide)
    have hgap : Text.Padding [' '] := by decide
    have hoperand : IsOperand "18".toList := ⟨by decide, List.all_eq_true.mp (by decide)⟩
    exact .comparison (by decide) hoperator hgap hoperand

theorem wellWritten_whenOpen : whenOpen.WellWritten where
  name_ne_nil := by decide
  name_word := List.all_eq_true.mp (by decide)
  expression := ⟨"TEMPORAL:isDue('weekday && 08:00-18:00')".toList, by decide, by decide, by decide⟩
  condition := by
    rintro condition ⟨⟩

theorem read_ofAge :
    read (written [ofAge] "notify && stop") =
      .ok ⟨[ofAge], "notify && stop", written [ofAge] "notify && stop"⟩ := by
  have hds : ∀ d ∈ [ofAge], d.WellWritten := by
    intro d hd
    rw [List.mem_singleton.mp hd]
    exact wellWritten_ofAge
  have hnone : ∀ d ∈ [ofAge], ¬ d.HasSeparator := by
    intro d hd
    rw [List.mem_singleton.mp hd]
    rintro (hexpression | ⟨condition, ⟨⟩, hcondition⟩)
    · exact absurd hexpression (by decide)
    · exact absurd hcondition (by decide)
  exact (read_written_iff (by decide) hds (by decide) (by decide) (by decide)).mpr hnone

/-- The separator of the temporal call ends the block, which is no declaration any more. -/
theorem read_whenOpen :
    written [whenOpen] "run" =
        "USE \x7bok\x7d => \x7b\x7bTEMPORAL:isDue('weekday && 08:00-18:00')\x7d\x7d && run" ∧
      whenOpen.WellWritten ∧
      read (written [whenOpen] "run") =
        .error ⟨written [whenOpen] "run", some .malformedDeclaration⟩ := by
  refine ⟨by decide, wellWritten_whenOpen, ?_⟩
  decide

end Placeholder.Clause
