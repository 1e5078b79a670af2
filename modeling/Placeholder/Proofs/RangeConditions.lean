import Mathlib
import Placeholder.Proofs.ClauseOutcome
import Placeholder.Proofs.FloatOrder
import Placeholder.Proofs.NumeralGrammar
import Placeholder.Proofs.WrittenDeclaration

/-!
# Ranges and comparisons

A comparison decodes its operand, and a range takes its ends for numbers as they are written: a
quoted number is none, and neither is `true`. So a range accepts what the two comparisons with its
ends accept unless an end is `true` or a quoted number other than zero.
-/

namespace Placeholder

/-! ### Texts that are no numerals -/

theorem Number.readScalar?_cons_eq_none {c : Char} {cs : List Char} (h : Text.Visible (c :: cs))
    (hdigit : c.isDigit = false) (hsign : c ≠ '+' ∧ c ≠ '-') (hpoint : c ≠ '.') :
    readScalar? (c :: cs) = none := by
  have hmark : Numeral.isSignMark c = false := by simp [Numeral.isSignMark, hsign]
  have hscan : Numeral.scan? (c :: cs) = none :=
    Numeral.scan?_cons_eq_none hmark (Arithmetic.not_numeric_iff.mpr ⟨hdigit, hpoint⟩)
  rw [readScalar?, h.trimmed, hscan]
  rfl

theorem Text.isDigit_of_isAlpha {c : Char} (h : c.isAlpha = true) : c.isDigit = false := by
  rw [Bool.eq_false_iff]
  intro hdigit
  simp only [Char.isAlpha, Char.isUpper, Char.isLower, Char.isDigit, Bool.or_eq_true,
    Bool.and_eq_true, decide_eq_true_eq, ge_iff_le, UInt32.le_iff_toNat_le] at h hdigit
  change 48 ≤ c.val.toNat ∧ c.val.toNat ≤ 57 at hdigit
  change (65 ≤ c.val.toNat ∧ c.val.toNat ≤ 90) ∨ (97 ≤ c.val.toNat ∧ c.val.toNat ≤ 122) at h
  omega

namespace Argument

theorem exists_quote_of_unquote? {cs text : List Char} (h : unquote? cs = some text) :
    ∃ q rest, cs = q :: rest ∧ (q = '"' ∨ q = '\'') := by
  unfold unquote? at h
  split at h
  · split_ifs at h with hquoted
    exact ⟨_, _, rfl, hquoted.1⟩
  · cases h

theorem readScalar?_of_unquote? {cs text : List Char} (hcs : Text.Visible cs)
    (h : unquote? cs = some text) : Number.readScalar? cs = none := by
  obtain ⟨q, rest, rfl, hq⟩ := exists_quote_of_unquote? h
  rcases hq with rfl | rfl <;>
    exact Number.readScalar?_cons_eq_none hcs (by decide) (by decide) (by decide)

theorem exists_letter_of_true {cs : List Char} (h : Text.lowerAscii cs = "true".toList) :
    ∃ c rest, cs = c :: rest ∧ c.isAlpha = true := by
  cases cs with
  | nil => cases h
  | cons c rest =>
    have hc : c.toLower = 't' := (List.cons.inj h).1
    refine ⟨c, rest, rfl, ?_⟩
    rw [← Char.isAlpha_toLower_eq_isAlpha, hc]
    rfl

theorem decode_of_true {cs : List Char} (hcs : Text.Visible cs)
    (h : Text.lowerAscii cs = "true".toList) :
    Number.readScalar? cs = none ∧ decode cs = .bool true := by
  obtain ⟨c, rest, rfl, hc⟩ := exists_letter_of_true h
  have hne : ∀ d : Char, d.isAlpha = false → c ≠ d := by
    rintro d hd rfl
    rw [hc] at hd
    cases hd
  have hread := Number.readScalar?_cons_eq_none hcs (Text.isDigit_of_isAlpha hc)
    ⟨hne '+' (by decide), hne '-' (by decide)⟩ (hne '.' (by decide))
  have hunquote : unquote? (c :: rest) = none := by
    rw [← Option.not_isSome_iff_eq_none]
    intro hsome
    obtain ⟨text, htext⟩ := Option.isSome_iff_exists.mp hsome
    obtain ⟨q, rest', heq, hq⟩ := exists_quote_of_unquote? htext
    obtain rfl := (List.cons.inj heq).1
    rcases hq with rfl | rfl <;> cases hc
  refine ⟨hread, ?_⟩
  rw [decode, hunquote, hread, keyword?, if_pos h]
  rfl

end Argument

namespace Clause

/-! ### The number of an operand -/

/-- An operand for which a range and a comparison take the same number, or two zeros. -/
structure ReadsAlike (operand : List Char) : Prop where
  notTrue : Text.lowerAscii operand ≠ "true".toList
  quotedZero : ∀ text ∈ Argument.unquote? operand,
    (Value.string (String.ofList text)).toScalar.IsZero

instance (operand : List Char) : Decidable (ReadsAlike operand) :=
  decidable_of_iff (Text.lowerAscii operand ≠ "true".toList ∧
      ∀ text ∈ Argument.unquote? operand, (Value.string (String.ofList text)).toScalar.IsZero)
    ⟨fun h => ⟨h.1, h.2⟩, fun h => ⟨h.notTrue, h.quotedZero⟩⟩

theorem bound_of_readScalar?_eq_none {operand : List Char} (h : Text.Visible operand)
    (hread : Number.readScalar? operand = none) : Requirement.bound operand = .int 0 := by
  rw [Requirement.bound, h.trimmed, Value.toScalar, String.toList_ofList, hread]
  rfl

theorem ReadsAlike.compare_eq {operand : List Char} (h : ReadsAlike operand)
    (hvisible : Text.Visible operand) (a : Number.Scalar) :
    a.compare (Argument.decode operand).toScalar = a.compare (Requirement.bound operand) := by
  cases hunquote : Argument.unquote? operand with
  | some text =>
    have hread := Argument.readScalar?_of_unquote? hvisible hunquote
    rw [bound_of_readScalar?_eq_none hvisible hread, Argument.decode, hunquote]
    exact Number.Scalar.compare_of_isZero (h.quotedZero text hunquote) a
  | none =>
    rw [Argument.decode, hunquote]
    cases hread : Number.readScalar? operand with
    | some n =>
      rw [Requirement.bound, hvisible.trimmed, Value.toScalar, String.toList_ofList, hread]
      cases n <;> rfl
    | none =>
      rw [bound_of_readScalar?_eq_none hvisible hread, Argument.keyword?, if_neg h.notTrue]
      split_ifs
      · rfl
      · rfl
      · rw [Option.getD_none, Value.toScalar, String.toList_ofList, hread]
        rfl

/-- Where the two numbers are not alike, the range takes zero and the comparison does not. -/
theorem bound_eq_zero_of_not_readsAlike {operand : List Char} (h : ¬ ReadsAlike operand)
    (hvisible : Text.Visible operand) :
    Requirement.bound operand = .int 0 ∧ ¬ (Argument.decode operand).toScalar.IsZero := by
  by_cases htrue : Text.lowerAscii operand = "true".toList
  · obtain ⟨hread, hdecode⟩ := Argument.decode_of_true hvisible htrue
    have hone : ¬ (Value.bool true).toScalar.IsZero := by decide
    rw [hdecode]
    exact ⟨bound_of_readScalar?_eq_none hvisible hread, hone⟩
  · have hquoted : ¬ ∀ text ∈ Argument.unquote? operand,
        (Value.string (String.ofList text)).toScalar.IsZero := fun hall => h ⟨htrue, hall⟩
    push Not at hquoted
    obtain ⟨text, hunquote, hzero⟩ := hquoted
    have hread := Argument.readScalar?_of_unquote? hvisible hunquote
    rw [Argument.decode, hunquote]
    exact ⟨bound_of_readScalar?_eq_none hvisible hread, hzero⟩

/-! ### Reading a range and a comparison -/

namespace Requirement

theorem contains_newline_of_visible {cs : List Char} (h : Text.Visible cs) :
    cs.contains '\n' = false := by
  rw [Bool.eq_false_iff, ne_eq, List.contains_iff_mem]
  intro hmem
  cases h.2 _ hmem

theorem upperEnd?_cons_of_visible {c : Char} (hc : Text.isBlank c = false) (cs : List Char) :
    upperEnd? (c :: cs) = none := by
  rw [upperEnd?, takeRun?_of_stops (stops_cons.mpr hc)]
  rfl

theorem upperEnd?_written {high : List Char} (h : Text.Visible high) :
    upperEnd? (" AND ".toList ++ high) = some high := by
  obtain ⟨c, rest, rfl⟩ := List.exists_cons_of_ne_nil h.1
  have hgap : IsGap [' '] := by decide
  have hfirst : takeRun? Text.isBlank (" AND ".toList ++ c :: rest) =
      some ([' '], "AND ".toList ++ c :: rest) :=
    takeRun?_gap hgap (by decide) ("ND ".toList ++ c :: rest)
  have hand : IsKeyword "AND" "AND".toList := by decide
  have hkeyword : afterKeyword? "AND" ("AND ".toList ++ c :: rest) = some (' ' :: c :: rest) :=
    afterKeyword?_append hand (' ' :: c :: rest)
  have hsecond : takeRun? Text.isBlank (' ' :: c :: rest) = some ([' '], c :: rest) :=
    takeRun?_gap hgap (h.2 c List.mem_cons_self) rest
  rw [upperEnd?, hfirst]
  simp only [Option.bind_eq_bind, Option.bind_some, hkeyword, hsecond, List.isEmpty_cons,
    contains_newline_of_visible h]
  rfl

/-- The lower end of a range is all of its first word: inside a word no upper end begins. -/
theorem ends?_append {low rest high : List Char} (hlow : Text.Visible low)
    (hrest : upperEnd? rest = some high) : ends? (low ++ rest) = some (low, high) := by
  induction low with
  | nil => exact absurd rfl hlow.1
  | cons c low ih =>
    have hc : c ≠ '\n' := by
      rintro rfl
      cases hlow.2 _ List.mem_cons_self
    rw [List.cons_append, ends?, if_neg hc]
    cases low with
    | nil => rw [List.nil_append, hrest]
    | cons d low =>
      have htail : Text.Visible (d :: low) :=
        ⟨List.cons_ne_nil d low, fun e he => hlow.2 e (List.mem_cons_of_mem c he)⟩
      have hnone : upperEnd? (d :: low ++ rest) = none :=
        upperEnd?_cons_of_visible (htail.2 d List.mem_cons_self) (low ++ rest)
      rw [hnone, ih htail]
      rfl

theorem between?_written {low high : List Char} (hlow : Text.Visible low)
    (hhigh : Text.Visible high) :
    between? ("BETWEEN ".toList ++ (low ++ (" AND ".toList ++ high))) =
      some (.between low high) := by
  have hends := ends?_append hlow (upperEnd?_written hhigh)
  have hstops : Stops Text.isBlank (low ++ (" AND ".toList ++ high)) := by
    obtain ⟨c, tail, rfl⟩ := List.exists_cons_of_ne_nil hlow.1
    exact stops_cons.mpr (hlow.2 c List.mem_cons_self)
  generalize low ++ (" AND ".toList ++ high) = rest at hends hstops
  have hbetween : IsKeyword "BETWEEN" "BETWEEN".toList := by decide
  have hkeyword : afterKeyword? "BETWEEN" ("BETWEEN ".toList ++ rest) = some (' ' :: rest) :=
    afterKeyword?_append hbetween (' ' :: rest)
  have hblank : IsGap [' '] := by decide
  have hgap : takeRun? Text.isBlank (' ' :: rest) = some ([' '], rest) :=
    takeRun?_append hblank.1 hblank.2 hstops
  have hfind : (List.range [' '].length).findSome? (fun n =>
      ends? ([' '].drop ([' '].length - n) ++ rest)) = some (low, high) := by
    have hdrop : [' '].drop ([' '].length - 0) ++ rest = rest := rfl
    rw [show List.range [' '].length = [0] from rfl, List.findSome?_cons, hdrop, hends]
  rw [between?, hkeyword]
  simp only [Option.bind_eq_bind, Option.bind_some, hgap, hfind]

theorem between?_cons_of_ne {c : Char} (hc : c.toUpper ≠ 'B') (cs : List Char) :
    between? (c :: cs) = none := by
  have hkeyword : afterKeyword? "BETWEEN" (c :: cs) = none := by
    simp only [afterKeyword?]
    split
    · rfl
    · exact if_neg fun heq => hc (List.cons.inj heq).1
  rw [between?, hkeyword]
  rfl

theorem comparison?_written {operator operand : List Char} (hne : operator ≠ [])
    (hoperator : ∀ c ∈ operator, isOperatorChar c = true) (hoperand : Text.Visible operand) :
    comparison? (operator ++ ' ' :: operand) = some (.comparison operator operand) := by
  have hrun : takeRun? isOperatorChar (operator ++ ' ' :: operand) =
      some (operator, ' ' :: operand) :=
    takeRun?_append hne hoperator (stops_cons.mpr (by decide))
  have hblank : Text.Padding [' '] := by decide
  have hskip : skipBlank (' ' :: operand) = operand :=
    (Text.trimStart_append_of_padding hblank operand).trans hoperand.trimmed.trimStart_eq
  obtain ⟨c, rest, rfl⟩ := List.exists_cons_of_ne_nil hoperand.1
  rw [comparison?, hrun]
  simp only [Option.bind_eq_bind, Option.bind_some, hskip, contains_newline_of_visible hoperand]
  rfl

end Requirement

theorem meets_range {low high : String} (hlow : Text.Visible low.toList)
    (hhigh : Text.Visible high.toList) (v : Value) :
    meets v ("BETWEEN " ++ low ++ " AND " ++ high) =
      (v.toScalar.compare (Requirement.bound low.toList) != .lt &&
        v.toScalar.compare (Requirement.bound high.toList) != .gt) := by
  have hwritten : ("BETWEEN " ++ low ++ " AND " ++ high).toList =
      "BETWEEN ".toList ++ (low.toList ++ (" AND ".toList ++ high.toList)) := by
    simp only [String.toList_append, List.append_assoc]
  have htrim : Text.trim ("BETWEEN " ++ low ++ " AND " ++ high).toList =
      "BETWEEN ".toList ++ (low.toList ++ (" AND ".toList ++ high.toList)) := by
    rw [hwritten]
    exact (((hhigh.endsVisible.append_left " AND ".toList).append_left low.toList).append_left
      "BETWEEN ".toList).trimmed_cons (by decide)
  have hread : Requirement.read? (Text.trim ("BETWEEN " ++ low ++ " AND " ++ high).toList) =
      some (.between low.toList high.toList) := by
    rw [htrim, Requirement.read?, Requirement.between?_written hlow hhigh]
    rfl
  exact meets_of_read?_eq_some hread v

theorem meets_comparison {operator operand : String} (hne : operator.toList ≠ [])
    (hoperator : ∀ c ∈ operator.toList, isOperatorChar c = true)
    (hoperand : Text.Visible operand.toList) (v : Value) :
    meets v (operator ++ " " ++ operand) =
      Requirement.compares v operator (Argument.decode operand.toList) := by
  have hwritten : (operator ++ " " ++ operand).toList =
      operator.toList ++ ' ' :: operand.toList := by
    simp only [String.toList_append, List.append_assoc]
    rfl
  have hcomparison := Requirement.comparison?_written hne hoperator hoperand
  obtain ⟨c, rest, hcons⟩ := List.exists_cons_of_ne_nil hne
  have hc : isOperatorChar c = true := hoperator c (hcons ▸ List.mem_cons_self)
  have hupper : c.toUpper ≠ 'B' := by
    intro hb
    rw [isOperatorChar_of_toUpper hb] at hc
    cases hc
  have htrim : Text.trim (operator ++ " " ++ operand).toList =
      operator.toList ++ ' ' :: operand.toList := by
    rw [hwritten, hcons]
    exact ((hoperand.endsVisible.append_left [' ']).append_left (c :: rest)).trimmed_cons
      (isBlank_of_isOperatorChar hc)
  have hread : Requirement.read? (Text.trim (operator ++ " " ++ operand).toList) =
      some (.comparison operator.toList operand.toList) := by
    rw [htrim, Requirement.read?, hcomparison, hcons, List.cons_append,
      Requirement.between?_cons_of_ne hupper]
    rfl
  rw [meets_of_read?_eq_some hread, Requirement.holds, String.ofList_toList, hoperand.trimmed]

/-! ### A range against two comparisons -/

/-- A range accepts the values that both comparisons with its ends accept. -/
def RangeAgrees (low high : String) : Prop :=
  ∀ v, meets v ("BETWEEN " ++ low ++ " AND " ++ high) =
    (meets v (">= " ++ low) && meets v ("<= " ++ high))

theorem meets_atLeast {low : String} (hlow : Text.Visible low.toList) (v : Value) :
    meets v (">= " ++ low) =
      (v.toScalar.compare (Argument.decode low.toList).toScalar != .lt) := by
  have hoperator : ∀ c ∈ ">=".toList, isOperatorChar c = true := List.all_eq_true.mp rfl
  have hne : ">=".toList ≠ [] := by decide
  have hsplit : ">= " = ">=" ++ " " := rfl
  rw [hsplit, meets_comparison hne hoperator hlow v]
  rfl

theorem meets_atMost {high : String} (hhigh : Text.Visible high.toList) (v : Value) :
    meets v ("<= " ++ high) =
      (v.toScalar.compare (Argument.decode high.toList).toScalar != .gt) := by
  have hoperator : ∀ c ∈ "<=".toList, isOperatorChar c = true := List.all_eq_true.mp rfl
  have hne : "<=".toList ≠ [] := by decide
  have hsplit : "<= " = "<=" ++ " " := rfl
  rw [hsplit, meets_comparison hne hoperator hhigh v]
  rfl

theorem rangeAgrees_of_readsAlike {low high : String} (hlow : Text.Visible low.toList)
    (hhigh : Text.Visible high.toList) (hlowAlike : ReadsAlike low.toList)
    (hhighAlike : ReadsAlike high.toList) : RangeAgrees low high := by
  intro v
  rw [meets_range hlow hhigh, meets_atLeast hlow, meets_atMost hhigh, hlowAlike.compare_eq hlow,
    hhighAlike.compare_eq hhigh]

/-- A range of one point whose number is zero for the range alone: it accepts zero and refuses one,
and the two comparisons can do so only with a number that is a zero. -/
theorem readsAlike_of_rangeAgrees {operand : String} (h : Text.Visible operand.toList)
    (hagrees : RangeAgrees operand operand) : ReadsAlike operand.toList := by
  by_contra hunlike
  obtain ⟨hbound, hzero⟩ := bound_eq_zero_of_not_readsAlike hunlike h
  simp only [RangeAgrees, meets_range h h, meets_atLeast h, meets_atMost h, hbound] at hagrees
  have hequal : (Number.Scalar.int 0).compare (Argument.decode operand.toList).toScalar = .eq := by
    have hnull := hagrees (.int 0)
    rw [Value.toScalar, Number.Scalar.compare_self] at hnull
    revert hnull
    cases (Number.Scalar.int 0).compare (Argument.decode operand.toList).toScalar <;> decide
  have hone := hagrees (.int 1)
  rw [Value.toScalar, Number.Scalar.compare_eq_of_not_isZero hzero hequal] at hone
  revert hone
  decide

/-- Over any choice of words, ranges and comparisons agree exactly when no word is `true` or a
quoted number other than zero. -/
theorem rangeAgrees_iff {words : Set String} (h : ∀ word ∈ words, Text.Visible word.toList) :
    (∀ low ∈ words, ∀ high ∈ words, RangeAgrees low high) ↔
      ∀ word ∈ words, ReadsAlike word.toList := by
  constructor
  · exact fun hagrees word hword =>
      readsAlike_of_rangeAgrees (h word hword) (hagrees word hword word hword)
  · exact fun halike low hlow high hhigh =>
      rangeAgrees_of_readsAlike (h low hlow) (h high hhigh) (halike low hlow) (halike high hhigh)

def alikeWords : List String :=
  ["1", "200", "false", "'ten'", "'0.0'"]

theorem rangeAgrees_alikeWords :
    (∀ word ∈ alikeWords, Text.Visible word.toList) ∧
      ∀ low ∈ alikeWords, ∀ high ∈ alikeWords, RangeAgrees low high := by
  have hvisible : ∀ word ∈ alikeWords, Text.Visible word.toList := by decide
  have halike : ∀ word ∈ alikeWords, ReadsAlike word.toList := by decide
  have hagrees := @rangeAgrees_iff {word | word ∈ alikeWords} hvisible
  exact ⟨hvisible, hagrees.mpr halike⟩

/-- Zero is in a range that one of the two comparisons keeps it out of. -/
theorem not_rangeAgrees_quotedNumbers :
    meets (.int 0) "BETWEEN '5' AND '10'" = true ∧ meets (.int 0) ">= '5'" = false ∧
      meets (.int 0) "<= '10'" = true ∧ ¬ RangeAgrees "'5'" "'10'" := by
  have hrange : meets (.int 0) "BETWEEN '5' AND '10'" = true := by decide
  have hlow : meets (.int 0) ">= '5'" = false := by decide
  have hhigh : meets (.int 0) "<= '10'" = true := by decide
  refine ⟨hrange, hlow, hhigh, fun hagrees => ?_⟩
  have hnull : meets (.int 0) "BETWEEN '5' AND '10'" =
      (meets (.int 0) ">= '5'" && meets (.int 0) "<= '10'") := hagrees (.int 0)
  rw [hrange, hlow] at hnull
  cases hnull

end Clause

end Placeholder
