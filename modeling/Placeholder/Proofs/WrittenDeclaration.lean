import Mathlib
import Placeholder.Clause
import Placeholder.Proofs.Searching
import Placeholder.Proofs.TemplatePieces

/-!
# Declarations as they are written

A declaration is written with one blank at each gap; its condition compares with an operand of one
word or names a range. Reading a block of such declarations gives the declarations back.
-/

namespace Placeholder.Clause

/-! ### Runs of characters -/

/-- What follows a run does not extend it. -/
def Stops (p : Char → Bool) (rest : List Char) : Prop :=
  ∀ c ∈ rest.head?, p c = false

theorem stops_nil (p : Char → Bool) : Stops p [] := by
  intro c hc
  cases hc

theorem stops_cons {p : Char → Bool} {c : Char} {rest : List Char} :
    Stops p (c :: rest) ↔ p c = false := by
  simp [Stops]

theorem takeWhile_append_of_stops {p : Char → Bool} {run rest : List Char}
    (hrun : ∀ c ∈ run, p c = true) (hrest : Stops p rest) :
    (run ++ rest).takeWhile p = run ∧ (run ++ rest).dropWhile p = rest := by
  cases rest with
  | nil =>
    rw [List.append_nil]
    exact ⟨List.takeWhile_eq_self_iff.mpr hrun, List.dropWhile_eq_nil_iff.mpr hrun⟩
  | cons c rest =>
    have hc := stops_cons.mp hrest
    rw [List.takeWhile_append_of_pos hrun, List.dropWhile_append_of_pos hrun,
      List.takeWhile_cons_of_neg (by simp [hc]), List.dropWhile_cons_of_neg (by simp [hc]),
      List.append_nil]
    exact ⟨rfl, rfl⟩

theorem stops_dropWhile (p : Char → Bool) (cs : List Char) : Stops p (cs.dropWhile p) := by
  induction cs with
  | nil => exact stops_nil p
  | cons c cs ih =>
    by_cases hc : p c = true
    · rw [List.dropWhile_cons_of_pos hc]
      exact ih
    · rw [List.dropWhile_cons_of_neg hc]
      exact stops_cons.mpr (Bool.eq_false_iff.mpr hc)

theorem takeRun?_append {p : Char → Bool} {run rest : List Char} (hne : run ≠ [])
    (hrun : ∀ c ∈ run, p c = true) (hrest : Stops p rest) :
    takeRun? p (run ++ rest) = some (run, rest) := by
  obtain ⟨htake, hdrop⟩ := takeWhile_append_of_stops hrun hrest
  simp [takeRun?, htake, hdrop, hne]

theorem takeRun?_of_stops {p : Char → Bool} {rest : List Char} (h : Stops p rest) :
    takeRun? p rest = none := by
  cases rest with
  | nil => rfl
  | cons c rest => simp [takeRun?, stops_cons.mp h]

theorem takeRun?_eq_some {p : Char → Bool} {cs run rest : List Char}
    (h : takeRun? p cs = some (run, rest)) :
    run ≠ [] ∧ (∀ c ∈ run, p c = true) ∧ cs = run ++ rest := by
  simp only [takeRun?] at h
  split at h
  · cases h
  · rename_i hne
    cases h
    exact ⟨by simpa using hne, fun c hc => List.mem_takeWhile_imp hc,
      List.takeWhile_append_dropWhile.symm⟩

/-! ### References and placeholders -/

theorem takeReference?_written {name : List Char} (hne : name ≠ [])
    (hname : ∀ c ∈ name, Text.isWord c = true) (rest : List Char) :
    takeReference? ('\x7b' :: (name ++ '\x7d' :: rest)) = some (name, rest) := by
  have hstops : Stops Text.isWord ('\x7d' :: rest) := stops_cons.mpr (by decide)
  have hopen : Text.after? ['\x7b'] ('\x7b' :: (name ++ '\x7d' :: rest)) =
      some (name ++ '\x7d' :: rest) := rfl
  have hclose : Text.after? ['\x7d'] ('\x7d' :: rest) = some rest := rfl
  simp only [takeReference?, hopen, takeRun?_append hne hname hstops, hclose, Option.bind_eq_bind,
    Option.bind_some]

theorem takeReference?_of_ne {c : Char} (hc : c ≠ '\x7b') (rest : List Char) :
    takeReference? (c :: rest) = none := by
  have hopen : Text.after? ['\x7b'] (c :: rest) = none := by
    simp [Text.after?, hc.symm]
  simp only [takeReference?, hopen, Option.bind_eq_bind, Option.bind_none]

theorem takeExpression?_embrace {content : List Char} (hne : content ≠ [])
    (hclosed : '\x7d' ∉ content) (rest : List Char) :
    takeExpression? (Template.embrace content ++ rest) =
      some (Template.embrace content, rest) := by
  have hrun : ∀ c ∈ content, (c != '\x7d') = true := fun c hc =>
    bne_iff_ne.mpr fun heq => hclosed (heq ▸ hc)
  have hstops : Stops (fun c => c != '\x7d') ('\x7d' :: '\x7d' :: rest) :=
    stops_cons.mpr (by decide)
  have hopen : Text.after? ['\x7b', '\x7b']
      ('\x7b' :: '\x7b' :: (content ++ '\x7d' :: '\x7d' :: rest)) =
        some (content ++ '\x7d' :: '\x7d' :: rest) := rfl
  have hclose : Text.after? ['\x7d', '\x7d'] ('\x7d' :: '\x7d' :: rest) = some rest := rfl
  rw [Template.embrace_append]
  simp only [takeExpression?, hopen, takeRun?_append hne hrun hstops, hclose, Option.bind_eq_bind,
    Option.bind_some]
  rfl

/-! ### Conditions -/

def IsOperand (cs : List Char) : Prop :=
  cs ≠ [] ∧ ∀ c ∈ cs, isOperandChar c = true

instance (cs : List Char) : Decidable (IsOperand cs) :=
  decidable_of_iff (cs ≠ [] ∧ cs.all isOperandChar = true) (by simp [IsOperand])

def IsGap (cs : List Char) : Prop :=
  cs ≠ [] ∧ Text.Padding cs

instance (cs : List Char) : Decidable (IsGap cs) :=
  inferInstanceAs (Decidable (cs ≠ [] ∧ Text.Padding cs))

def IsKeyword (keyword : String) (cs : List Char) : Prop :=
  cs.map Char.toUpper = keyword.toList

instance (keyword : String) (cs : List Char) : Decidable (IsKeyword keyword cs) :=
  inferInstanceAs (Decidable (cs.map Char.toUpper = keyword.toList))

/-- The texts of conditions: an operator and an operand with or without white space between them,
and a range between two operands. -/
inductive ConditionText : List Char → Prop where
  | comparison {operator gap operand : List Char} :
      operator ≠ [] → (∀ c ∈ operator, isOperatorChar c = true) → Text.Padding gap →
      IsOperand operand → ConditionText (operator ++ (gap ++ operand))
  | between {word gap low gap' link gap'' high : List Char} :
      IsKeyword "BETWEEN" word → IsGap gap → IsOperand low → IsGap gap' → IsKeyword "AND" link →
      IsGap gap'' → IsOperand high →
      ConditionText (word ++ (gap ++ (low ++ (gap' ++ (link ++ (gap'' ++ high))))))

/-- What may follow a declaration in a block: nothing, or the comma before the next one. -/
def Follows (rest : List Char) : Prop :=
  rest = [] ∨ ∃ tail, rest = ',' :: tail

/-- A declaration ends here, possibly with white space behind it. -/
def Ends (rest : List Char) : Prop :=
  Follows (skipBlank rest)

theorem Follows.skipBlank_eq {rest : List Char} (h : Follows rest) : skipBlank rest = rest := by
  rcases h with rfl | ⟨tail, rfl⟩
  · rfl
  · exact Text.trimStart_cons_of_not_blank (by decide) tail

theorem Follows.ends {rest : List Char} (h : Follows rest) : Ends rest := by
  rwa [Ends, h.skipBlank_eq]

theorem Follows.stops {rest : List Char} (h : Follows rest) {p : Char → Bool}
    (hp : p ',' = false) : Stops p rest := by
  rcases h with rfl | ⟨tail, rfl⟩
  · exact stops_nil p
  · exact stops_cons.mpr hp

theorem Ends.stops {rest : List Char} (h : Ends rest) {p : Char → Bool}
    (hblank : ∀ c, Text.isBlank c = true → p c = false) (hp : p ',' = false) : Stops p rest := by
  cases rest with
  | nil => exact stops_nil p
  | cons c tail =>
    rw [stops_cons]
    by_cases hc : Text.isBlank c = true
    · exact hblank c hc
    · have hskip : skipBlank (c :: tail) = c :: tail :=
        Text.trimStart_cons_of_not_blank (Bool.eq_false_iff.mpr hc) tail
      rw [Ends, hskip] at h
      exact stops_cons.mp (h.stops hp)

theorem isBlank_of_isOperandChar {c : Char} (h : isOperandChar c = true) :
    Text.isBlank c = false := by
  simp only [isOperandChar, Bool.and_eq_true, Bool.not_eq_true'] at h
  exact h.1

theorem isBlank_of_isOperatorChar {c : Char} (h : isOperatorChar c = true) :
    Text.isBlank c = false := by
  simp only [isOperatorChar, Bool.or_eq_true, beq_iff_eq] at h
  rcases h with ((rfl | rfl) | rfl) | rfl <;> decide

theorem isOperatorChar_of_isBlank {c : Char} (h : Text.isBlank c = true) :
    isOperatorChar c = false := by
  rw [Bool.eq_false_iff]
  intro hc
  rw [isBlank_of_isOperatorChar hc] at h
  contradiction

theorem isOperandChar_of_isBlank {c : Char} (h : Text.isBlank c = true) :
    isOperandChar c = false := by
  simp [isOperandChar, h]

theorem Ends.stops_operand {rest : List Char} (h : Ends rest) : Stops isOperandChar rest :=
  h.stops (fun _ => isOperandChar_of_isBlank) (by decide)

theorem Ends.stops_operator {rest : List Char} (h : Ends rest) : Stops isOperatorChar rest :=
  h.stops (fun _ => isOperatorChar_of_isBlank) (by decide)

theorem IsOperand.exists_cons {cs : List Char} (h : IsOperand cs) :
    ∃ c rest, cs = c :: rest ∧ Text.isBlank c = false := by
  obtain ⟨c, rest, rfl⟩ := List.exists_cons_of_ne_nil h.1
  exact ⟨c, rest, rfl, isBlank_of_isOperandChar (h.2 c List.mem_cons_self)⟩

theorem IsOperand.endsVisible {cs : List Char} (h : IsOperand cs) : Text.EndsVisible cs := by
  obtain ⟨start, d, rfl⟩ := (List.eq_nil_or_concat' cs).resolve_left h.1
  exact ⟨start, d, rfl, isBlank_of_isOperandChar (h.2 d (by simp))⟩

theorem afterOperand?_padded {gap operand rest : List Char} (hgap : Text.Padding gap)
    (hoperand : IsOperand operand) (hrest : Stops isOperandChar rest) :
    afterOperand? (gap ++ (operand ++ rest)) = some rest := by
  obtain ⟨c, tail, heq, hc⟩ := hoperand.exists_cons
  have hskip : skipBlank (gap ++ (operand ++ rest)) = operand ++ rest := by
    rw [skipBlank, Text.trimStart_append_of_padding hgap, heq, List.cons_append,
      Text.trimStart_cons_of_not_blank hc]
  rw [afterOperand?, hskip, takeRun?_append hoperand.1 hoperand.2 hrest]
  rfl

theorem afterOperand?_of_ends {rest : List Char} (h : Ends rest) : afterOperand? rest = none := by
  rw [afterOperand?, takeRun?_of_stops (Follows.stops h (by decide))]
  rfl

theorem afterKeyword?_of_follows {keyword : String} {c : Char}
    (hhead : keyword.toList.head? = some c) (hc : ',' ≠ c) {rest : List Char} (h : Follows rest) :
    afterKeyword? keyword rest = none := by
  simp only [afterKeyword?]
  split
  · rfl
  · apply if_neg
    intro heq
    rcases h with rfl | ⟨tail, rfl⟩
    · rw [← heq, List.take_nil] at hhead
      cases hhead
    · rw [← heq, ← String.length_toList] at hhead
      cases hlen : keyword.toList.length with
      | zero =>
        rw [hlen] at hhead
        cases hhead
      | succ n =>
        rw [hlen] at hhead
        exact hc (Option.some.inj hhead)

theorem afterUpperEnd?_of_ends {rest : List Char} (h : Ends rest) : afterUpperEnd? rest = none := by
  simp only [afterUpperEnd?, Option.bind_eq_bind]
  cases htake : takeRun? Text.isBlank rest with
  | none => rfl
  | some found =>
    have hskip : found.2 = skipBlank rest := by
      simp only [takeRun?] at htake
      split at htake
      · cases htake
      · cases htake
        rfl
    rw [Option.bind_some, hskip, afterKeyword?_of_follows rfl (by decide : ',' ≠ 'A') h]
    rfl

/-- A comparison is taken whole. Where no white space separates operator and operand, the operator
takes the operator characters at the start of the operand, possibly all of it. -/
theorem afterComparison?_written {operator gap operand rest : List Char} (hne : operator ≠ [])
    (hoperator : ∀ c ∈ operator, isOperatorChar c = true) (hgap : Text.Padding gap)
    (hoperand : IsOperand operand) (hrest : Ends rest) :
    afterComparison? (operator ++ (gap ++ (operand ++ rest))) = some rest := by
  have hstop : Stops isOperandChar rest := hrest.stops_operand
  cases gap with
  | cons b gap =>
    have hb : Stops isOperatorChar (b :: gap ++ (operand ++ rest)) :=
      stops_cons.mpr (isOperatorChar_of_isBlank (hgap b List.mem_cons_self))
    rw [afterComparison?, takeRun?_append hne hoperator hb]
    simp only [Option.bind_eq_bind, Option.bind_some, afterOperand?_padded hgap hoperand hstop]
  | nil =>
    obtain ⟨front, back, hsplit, hfront, hback⟩ :
        ∃ front back, operand = front ++ back ∧ (∀ c ∈ front, isOperatorChar c = true) ∧
          Stops isOperatorChar back := by
      exact ⟨operand.takeWhile isOperatorChar, operand.dropWhile isOperatorChar,
        List.takeWhile_append_dropWhile.symm, fun c hc => List.mem_takeWhile_imp hc,
        stops_dropWhile isOperatorChar operand⟩
    subst hsplit
    have hrun : ∀ c ∈ operator ++ front, isOperatorChar c = true := by
      intro c hc
      rcases List.mem_append.mp hc with hc | hc
      · exact hoperator c hc
      · exact hfront c hc
    have hassoc : operator ++ ([] ++ (front ++ back ++ rest)) =
        (operator ++ front) ++ (back ++ rest) := by simp
    rw [hassoc, afterComparison?]
    cases back with
    | nil =>
      have hstops : Stops isOperatorChar ([] ++ rest) := hrest.stops_operator
      have hlen : ¬ (operator ++ front).length < 2 := by
        have hoplen : 0 < operator.length := List.length_pos_iff.mpr hne
        have hfrontlen : 0 < front.length := by
          rw [List.append_nil] at hoperand
          exact List.length_pos_iff.mpr hoperand.1
        rw [List.length_append]
        omega
      rw [takeRun?_append (by simp [hne]) hrun hstops]
      simp only [Option.bind_eq_bind, Option.bind_some, List.nil_append,
        afterOperand?_of_ends hrest, if_neg hlen]
    | cons d back =>
      have hstops : Stops isOperatorChar (d :: back ++ rest) :=
        stops_cons.mpr (stops_cons.mp hback)
      have htail : IsOperand (d :: back) :=
        ⟨List.cons_ne_nil d back, fun c hc => hoperand.2 c (List.mem_append_right front hc)⟩
      rw [takeRun?_append (by simp [hne]) hrun hstops]
      have hafter := afterOperand?_padded Text.padding_nil htail hstop
      rw [List.nil_append] at hafter
      simp only [Option.bind_eq_bind, Option.bind_some, hafter]

theorem afterKeyword?_append {keyword : String} {word : List Char} (h : IsKeyword keyword word)
    (rest : List Char) : afterKeyword? keyword (word ++ rest) = some rest := by
  have hlen : word.length = keyword.length := by
    have hmap := congrArg List.length h
    rwa [List.length_map, String.length_toList] at hmap
  have htake : (word ++ rest).take keyword.length = word := by
    rw [← hlen, List.take_left]
  have hdrop : (word ++ rest).drop keyword.length = rest := by
    rw [← hlen, List.drop_left]
  have hlong : ¬ (word ++ rest).length < keyword.length := by
    rw [List.length_append]
    omega
  simp only [afterKeyword?, hlong, htake, hdrop, show word.map Char.toUpper = keyword.toList from h,
    if_true, if_false]

theorem isOperatorChar_of_toUpper {c : Char} (h : c.toUpper = 'B') : isOperatorChar c = false := by
  rw [Bool.eq_false_iff]
  intro hc
  simp only [isOperatorChar, Bool.or_eq_true, beq_iff_eq] at hc
  rcases hc with ((rfl | rfl) | rfl) | rfl <;> revert h <;> decide

theorem afterComparison?_of_stops {cs : List Char} (h : Stops isOperatorChar cs) :
    afterComparison? cs = none := by
  rw [afterComparison?, takeRun?_of_stops h]
  rfl

theorem IsGap.stops {gap : List Char} (h : IsGap gap) {p : Char → Bool}
    (hp : ∀ c, Text.isBlank c = true → p c = false) (rest : List Char) : Stops p (gap ++ rest) := by
  obtain ⟨c, tail, rfl⟩ := List.exists_cons_of_ne_nil h.1
  exact stops_cons.mpr (hp c (h.2 c List.mem_cons_self))

theorem takeRun?_gap {gap : List Char} (hgap : IsGap gap) {c : Char}
    (hc : Text.isBlank c = false) (rest : List Char) :
    takeRun? Text.isBlank (gap ++ c :: rest) = some (gap, c :: rest) :=
  takeRun?_append hgap.1 hgap.2 (stops_cons.mpr hc)

theorem toUpper_of_isBlank {c : Char} (h : Text.isBlank c = true) : c.toUpper = c := by
  have hrange : ¬ (c.val ≥ 97 ∧ c.val ≤ 122) := by
    simp only [Text.isBlank, Char.toNat, Bool.or_eq_true, Bool.and_eq_true, decide_eq_true_eq,
      beq_iff_eq] at h
    simp only [ge_iff_le, UInt32.le_iff_toNat_le, UInt32.toNat_ofNat]
    omega
  unfold Char.toUpper
  exact dif_neg hrange

theorem IsKeyword.exists_cons {c : Char} {keyword : String} {word : List Char}
    (h : IsKeyword keyword word) (hhead : keyword.toList.head? = some c)
    (hc : Text.isBlank c = false) :
    ∃ d tail, word = d :: tail ∧ d.toUpper = c ∧ Text.isBlank d = false := by
  cases word with
  | nil =>
    rw [← show ([] : List Char).map Char.toUpper = keyword.toList from h] at hhead
    cases hhead
  | cons d tail =>
    rw [← show (d :: tail).map Char.toUpper = keyword.toList from h] at hhead
    have hd : d.toUpper = c := Option.some.inj hhead
    refine ⟨d, tail, rfl, hd, ?_⟩
    rw [Bool.eq_false_iff]
    intro hblank
    rw [toUpper_of_isBlank hblank] at hd
    rw [← hd, hblank] at hc
    contradiction

theorem afterUpperEnd?_written {gap link gap' high rest : List Char} (hgap : IsGap gap)
    (hlink : IsKeyword "AND" link) (hgap' : IsGap gap') (hhigh : IsOperand high)
    (hrest : Stops isOperandChar rest) :
    afterUpperEnd? (gap ++ (link ++ (gap' ++ (high ++ rest)))) = some rest := by
  obtain ⟨c, tail, hcons, -, hc⟩ := hlink.exists_cons rfl (by decide : Text.isBlank 'A' = false)
  obtain ⟨d, tail', hcons', hd⟩ := hhigh.exists_cons
  have hfirst : takeRun? Text.isBlank (gap ++ (link ++ (gap' ++ (high ++ rest)))) =
      some (gap, link ++ (gap' ++ (high ++ rest))) := by
    rw [hcons]
    exact takeRun?_gap hgap hc _
  have hsecond : takeRun? Text.isBlank (gap' ++ (high ++ rest)) = some (gap', high ++ rest) := by
    rw [hcons']
    exact takeRun?_gap hgap' hd _
  have hoperand := afterOperand?_padded Text.padding_nil hhigh hrest
  rw [List.nil_append] at hoperand
  simp only [afterUpperEnd?, hfirst, afterKeyword?_append hlink, hsecond, hoperand,
    Option.bind_eq_bind, Option.bind_some]

/-- The condition of a declaration is taken whole, from behind white space up to what follows the
declaration. -/
theorem afterCondition?_written {gap text rest : List Char} (hgap : Text.Padding gap)
    (htext : ConditionText text) (hrest : Ends rest) :
    afterCondition? (gap ++ (text ++ rest)) = some rest := by
  cases htext with
  | @comparison operator gap' operand hne hoperator hgap' hoperand =>
    obtain ⟨c, tail, rfl⟩ := List.exists_cons_of_ne_nil hne
    have hc := isBlank_of_isOperatorChar (hoperator c List.mem_cons_self)
    have hskip : skipBlank (gap ++ ((c :: tail) ++ (gap' ++ operand) ++ rest)) =
        (c :: tail) ++ (gap' ++ (operand ++ rest)) := by
      simp only [skipBlank, Text.trimStart_append_of_padding hgap, List.cons_append,
        Text.trimStart_cons_of_not_blank hc, List.append_assoc]
    simp only [afterCondition?, hskip, afterComparison?_written hne hoperator hgap' hoperand hrest,
      Option.some_or, Option.bind_eq_bind, Option.bind_some, afterUpperEnd?_of_ends hrest,
      Option.getD_none]
  | @between word gap₁ low gap₂ link gap₃ high hword hgap₁ hlow hgap₂ hlink hgap₃ hhigh =>
    obtain ⟨c, tail, hcons, hupper, hc⟩ :=
      hword.exists_cons rfl (by decide : Text.isBlank 'B' = false)
    have hstop : Stops isOperandChar rest := hrest.stops_operand
    have hskip : skipBlank (gap ++
        (word ++ (gap₁ ++ (low ++ (gap₂ ++ (link ++ (gap₃ ++ high))))) ++ rest)) =
        word ++ (gap₁ ++ (low ++ (gap₂ ++ (link ++ (gap₃ ++ (high ++ rest)))))) := by
      simp only [skipBlank, Text.trimStart_append_of_padding hgap, List.append_assoc, hcons,
        List.cons_append, Text.trimStart_cons_of_not_blank hc]
    have hcomparison : afterComparison?
        (word ++ (gap₁ ++ (low ++ (gap₂ ++ (link ++ (gap₃ ++ (high ++ rest))))))) = none := by
      rw [hcons]
      exact afterComparison?_of_stops (stops_cons.mpr (isOperatorChar_of_toUpper hupper))
    have hlowStop : Stops isOperandChar (gap₂ ++ (link ++ (gap₃ ++ (high ++ rest)))) :=
      hgap₂.stops (fun _ => isOperandChar_of_isBlank) _
    have hupperEnd := afterUpperEnd?_written hgap₂ hlink hgap₃ hhigh hstop
    simp only [afterCondition?, hskip, hcomparison, Option.none_or, afterKeyword?_append hword,
      afterOperand?_padded hgap₁.2 hlow hlowStop, hupperEnd, Option.bind_eq_bind,
      Option.bind_some, Option.getD_some]

theorem afterCondition?_of_ends {rest : List Char} (h : Ends rest) :
    afterCondition? rest = none := by
  have hcomparison : afterComparison? (skipBlank rest) = none :=
    afterComparison?_of_stops (Follows.stops h (by decide))
  have hkeyword : afterKeyword? "BETWEEN" (skipBlank rest) = none :=
    afterKeyword?_of_follows rfl (by decide : ',' ≠ 'B') h
  simp only [afterCondition?, hcomparison, hkeyword, Option.none_or, Option.bind_eq_bind,
    Option.bind_none]

theorem ConditionText.endsVisible {text : List Char} (h : ConditionText text) :
    Text.EndsVisible text := by
  cases h with
  | comparison _ _ _ hoperand => exact (hoperand.endsVisible.append_left _).append_left _
  | between _ _ _ _ _ _ hhigh =>
    have hgap := fun gap : List Char => hhigh.endsVisible.append_left gap
    exact (((((hgap _).append_left _).append_left _).append_left _).append_left _).append_left _

theorem ConditionText.trimmed {text : List Char} (h : ConditionText text) : Text.Trimmed text := by
  have hends := h.endsVisible
  cases h with
  | @comparison operator gap operand hne hoperator hgap hoperand =>
    obtain ⟨c, tail, rfl⟩ := List.exists_cons_of_ne_nil hne
    exact hends.trimmed_cons (isBlank_of_isOperatorChar (hoperator c List.mem_cons_self))
  | between hword _ _ _ _ _ _ =>
    obtain ⟨c, tail, rfl, -, hc⟩ := hword.exists_cons rfl (by decide : Text.isBlank 'B' = false)
    exact hends.trimmed_cons hc

/-- A condition reaches from the white space in front of it to where its pattern ends. -/
theorem takeCondition_of_after {gap text rest : List Char} (hgap : Text.Padding gap)
    (htext : Text.Trimmed text) (h : afterCondition? (gap ++ (text ++ rest)) = some rest) :
    takeCondition (gap ++ (text ++ rest)) = (some text, rest) := by
  have htake : (gap ++ (text ++ rest)).take ((gap ++ (text ++ rest)).length - rest.length) =
      gap ++ text := by
    have hlen : (gap ++ (text ++ rest)).length - rest.length = (gap ++ text).length := by
      simp only [List.length_append]
      omega
    rw [hlen, ← List.append_assoc]
    exact List.take_left
  have htrim : Text.trim (gap ++ text) = text := by
    have hpadded := Text.trim_padded hgap Text.padding_nil text
    rw [List.append_nil] at hpadded
    exact hpadded.trans htext
  simp only [takeCondition, h, htake, htrim]

theorem takeCondition_written {gap text rest : List Char} (hgap : Text.Padding gap)
    (htext : ConditionText text) (hrest : Ends rest) :
    takeCondition (gap ++ (text ++ rest)) = (some text, rest) :=
  takeCondition_of_after hgap htext.trimmed (afterCondition?_written hgap htext hrest)

theorem takeCondition_of_ends {rest : List Char} (h : Ends rest) :
    takeCondition rest = (none, rest) := by
  simp only [takeCondition, afterCondition?_of_ends h]

/-! ### Declarations -/

def conditionTail : Option String → List Char
  | none => []
  | some condition => ' ' :: condition.toList

def Declaration.text (d : Declaration) : List Char :=
  '\x7b' :: (d.name.toList ++ '\x7d' :: " => ".toList) ++
    (d.expression.toList ++ conditionTail d.condition)

/-- The names are words, a placeholder surrounds its expression and the condition has the form of
one. -/
structure Declaration.WellWritten (d : Declaration) : Prop where
  name_ne_nil : d.name.toList ≠ []
  name_word : ∀ c ∈ d.name.toList, Text.isWord c = true
  expression : ∃ content, content ≠ [] ∧ Template.BraceFree content ∧
    d.expression.toList = Template.embrace content
  condition : ∀ condition ∈ d.condition, ConditionText condition.toList

theorem takeCondition_conditionTail {condition : Option String}
    (hcondition : ∀ text ∈ condition, ConditionText text.toList) {rest : List Char}
    (hrest : Ends rest) :
    takeCondition (conditionTail condition ++ rest) = (condition.map String.toList, rest) := by
  cases condition with
  | none => exact takeCondition_of_ends hrest
  | some text =>
    have hblank : Text.Padding [' '] := by decide
    have hwritten := takeCondition_written hblank (hcondition text rfl) hrest
    rw [List.singleton_append] at hwritten
    rw [conditionTail, List.cons_append, hwritten]
    rfl

/-- A name, an arrow and a placeholder with any white space between them, and a condition if one
follows. -/
theorem takeDeclaration?_append {name gap gap' content : List Char} (hname : name ≠ [])
    (hword : ∀ c ∈ name, Text.isWord c = true) (hgap : Text.Padding gap)
    (hgap' : Text.Padding gap') (hne : content ≠ []) (hclosed : '\x7d' ∉ content)
    (tail : List Char) :
    takeDeclaration? ('\x7b' :: (name ++
        '\x7d' :: (gap ++ '=' :: '>' :: (gap' ++ (Template.embrace content ++ tail))))) =
      some (⟨String.ofList name, String.ofList (Template.embrace content),
        (takeCondition tail).1.map String.ofList⟩, (takeCondition tail).2) := by
  have harrow : Text.after? ['=', '>']
      (skipBlank (gap ++ '=' :: '>' :: (gap' ++ (Template.embrace content ++ tail)))) =
        some (gap' ++ (Template.embrace content ++ tail)) := by
    rw [skipBlank, Text.trimStart_append_of_padding hgap,
      Text.trimStart_cons_of_not_blank (by decide)]
    rfl
  have hskip : skipBlank (gap' ++ (Template.embrace content ++ tail)) =
      Template.embrace content ++ tail := by
    rw [skipBlank, Text.trimStart_append_of_padding hgap']
    exact Text.trimStart_cons_of_not_blank (by decide) _
  simp only [takeDeclaration?, takeReference?_written hname hword, harrow, hskip,
    takeExpression?_embrace hne hclosed, Option.bind_eq_bind, Option.bind_some]

theorem takeDeclaration?_text {d : Declaration} (h : d.WellWritten) {rest : List Char}
    (hrest : Ends rest) : takeDeclaration? (d.text ++ rest) = some (d, rest) := by
  obtain ⟨content, hne, hfree, hexpression⟩ := h.expression
  have hblank : Text.Padding [' '] := by decide
  have htake := takeDeclaration?_append h.name_ne_nil h.name_word hblank hblank hne
    hfree.not_mem_close (conditionTail d.condition ++ rest)
  have htext : d.text ++ rest = '\x7b' :: (d.name.toList ++ '\x7d' :: ([' '] ++ '=' :: '>' ::
      ([' '] ++ (Template.embrace content ++ (conditionTail d.condition ++ rest))))) := by
    simp [Declaration.text, hexpression]
  have hcondition : Option.map String.ofList (Option.map String.toList d.condition) =
      d.condition := by
    cases d.condition with
    | none => rfl
    | some text => exact congrArg some (String.ofList_toList)
  rw [htext, htake, takeCondition_conditionTail h.condition hrest, hcondition, ← hexpression,
    String.ofList_toList, String.ofList_toList]

theorem Declaration.WellWritten.endsVisible {d : Declaration} (h : d.WellWritten) :
    Text.EndsVisible d.text := by
  obtain ⟨content, -, -, hexpression⟩ := h.expression
  have hbraces : Text.EndsVisible d.expression.toList := by
    rw [hexpression]
    exact ⟨'\x7b' :: '\x7b' :: (content ++ ['\x7d']), '\x7d', by simp [Template.embrace], by decide⟩
  unfold Declaration.text
  cases hcondition : d.condition with
  | none =>
    rw [conditionTail, List.append_nil]
    exact hbraces.append_left _
  | some condition =>
    have hends := (h.condition condition hcondition).endsVisible
    exact ((hends.append_left [' ']).append_left _).append_left _

/-! ### Blocks -/

def blockText (ds : List Declaration) : List Char :=
  ", ".toList.intercalate (ds.map Declaration.text)

theorem blockText_singleton (d : Declaration) : blockText [d] = d.text := by
  simp [blockText]

theorem blockText_cons_cons (d d' : Declaration) (ds : List Declaration) :
    blockText (d :: d' :: ds) = d.text ++ ',' :: ' ' :: blockText (d' :: ds) := by
  simp [blockText, List.intercalate_cons_cons]

theorem exists_blockText_cons {ds : List Declaration} (hne : ds ≠ []) :
    ∃ cs, blockText ds = '\x7b' :: cs := by
  rcases ds with _ | ⟨d, _ | ⟨d', ds⟩⟩
  · exact absurd rfl hne
  · exact ⟨_, (blockText_singleton d).trans rfl⟩
  · exact ⟨_, (blockText_cons_cons d d' ds).trans rfl⟩

theorem endsVisible_blockText {ds : List Declaration} (hne : ds ≠ [])
    (hds : ∀ d ∈ ds, d.WellWritten) : Text.EndsVisible (blockText ds) := by
  induction ds with
  | nil => exact absurd rfl hne
  | cons d ds ih =>
    cases ds with
    | nil =>
      rw [blockText_singleton]
      exact (hds d List.mem_cons_self).endsVisible
    | cons d' ds =>
      have hrest := ih (List.cons_ne_nil d' ds) fun e he => hds e (List.mem_cons_of_mem d he)
      rw [blockText_cons_cons]
      exact (hrest.append_left [',', ' ']).append_left d.text

theorem takeDeclaration?_of_ne {c : Char} (hc : c ≠ '\x7b') (cs : List Char) :
    takeDeclaration? (c :: cs) = none := by
  simp only [takeDeclaration?, takeReference?_of_ne hc, Option.bind_eq_bind, Option.bind_none]

theorem readDeclarationsFrom_of_ne {c : Char} (hc : c ≠ '\x7b') (fuel : Nat) (cs : List Char) :
    readDeclarationsFrom (fuel + 1) (c :: cs) = readDeclarationsFrom fuel cs := by
  simp only [readDeclarationsFrom, takeDeclaration?_of_ne hc]

theorem readDeclarationsFrom_of_take {cs rest : List Char} {d : Declaration}
    (h : takeDeclaration? cs = some (d, rest)) (fuel : Nat) :
    readDeclarationsFrom (fuel + 1) cs = d :: readDeclarationsFrom fuel rest := by
  cases cs with
  | nil => cases h
  | cons c cs => simp only [readDeclarationsFrom, h]

theorem readDeclarationsFrom_nil (fuel : Nat) : readDeclarationsFrom fuel [] = [] := by
  cases fuel <;> rfl

/-- Reading a block gives its declarations back: each takes one step, and so do the comma and the
blank in front of the next. -/
theorem readDeclarationsFrom_blockText {ds : List Declaration} (hds : ∀ d ∈ ds, d.WellWritten)
    {fuel : Nat} (hfuel : (blockText ds).length ≤ fuel) :
    readDeclarationsFrom fuel (blockText ds) = ds := by
  induction ds generalizing fuel with
  | nil => exact readDeclarationsFrom_nil fuel
  | cons d ds ih =>
    have hd := hds d List.mem_cons_self
    have htext : 0 < d.text.length := Nat.succ_pos _
    cases ds with
    | nil =>
      rw [blockText_singleton] at hfuel ⊢
      obtain ⟨fuel, rfl⟩ := Nat.exists_eq_add_of_le' (by omega : 1 ≤ fuel)
      have hends : Follows [] := .inl rfl
      have htake := takeDeclaration?_text hd hends.ends
      rw [List.append_nil] at htake
      rw [readDeclarationsFrom_of_take htake, readDeclarationsFrom_nil]
    | cons d' ds =>
      rw [blockText_cons_cons] at hfuel ⊢
      simp only [List.length_append, List.length_cons] at hfuel
      obtain ⟨fuel, rfl⟩ := Nat.exists_eq_add_of_le' (by omega : 3 ≤ fuel)
      have hrest := ih (fun e he => hds e (List.mem_cons_of_mem d he)) (by omega : _ ≤ fuel)
      have hends : Follows (',' :: ' ' :: blockText (d' :: ds)) := .inr ⟨_, rfl⟩
      rw [show fuel + 3 = fuel + 1 + 1 + 1 from rfl,
        readDeclarationsFrom_of_take (takeDeclaration?_text hd hends.ends),
        readDeclarationsFrom_of_ne (by decide), readDeclarationsFrom_of_ne (by decide), hrest]

theorem readDeclarations_blockText {ds : List Declaration} (hds : ∀ d ∈ ds, d.WellWritten) :
    readDeclarations (blockText ds) = ds :=
  readDeclarationsFrom_blockText hds le_rfl

end Placeholder.Clause
