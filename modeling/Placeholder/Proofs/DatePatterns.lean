import Mathlib
import Placeholder.Calendar.Pattern

/-!
# Date patterns letter by letter

A pattern can be cut between any two of its letters and written piece by piece; only a cut behind
the backslash of an escape changes what is written. The backslashes at the end of the first piece
tell whether the cut is one of these, because they escape each other in pairs. A text whose
characters are all escaped is written as it is.
-/

namespace Placeholder.Calendar

def endingBackslashes (p : List Char) : Nat :=
  (p.reverse.takeWhile (· == '\\')).length

/-- The text with a backslash put before each character. -/
def escaped (s : List Char) : List Char :=
  s.flatMap fun c => ['\\', c]

section

variable {letter other : Char → Option (List Char)} {c : Char} {p : List Char}

/-! ### Backslashes at the end -/

theorem endingBackslashes_le (p : List Char) : endingBackslashes p ≤ p.length := by
  have hle := (List.takeWhile_prefix (· == '\\') (l := p.reverse)).length_le
  rwa [List.length_reverse] at hle

theorem endingBackslashes_cons (c : Char) (p : List Char) :
    endingBackslashes (c :: p) =
      endingBackslashes p + if endingBackslashes p = p.length ∧ c = '\\' then 1 else 0 := by
  unfold endingBackslashes
  rw [List.reverse_cons, List.takeWhile_append, List.length_reverse]
  by_cases hall : (p.reverse.takeWhile (· == '\\')).length = p.length
  · by_cases hc : c = '\\'
    · simp [hall, hc]
    · simp [hall, hc]
  · simp [hall]

theorem endingBackslashes_cons_of_ne (hc : c ≠ '\\') (p : List Char) :
    endingBackslashes (c :: p) = endingBackslashes p := by
  rw [endingBackslashes_cons, if_neg fun h => hc h.2, Nat.add_zero]

/-- An escape in front adds two backslashes or none. -/
theorem even_endingBackslashes_escape (c : Char) (p : List Char) :
    Even (endingBackslashes ('\\' :: c :: p)) ↔ Even (endingBackslashes p) := by
  have hle := endingBackslashes_le p
  rw [endingBackslashes_cons, endingBackslashes_cons, List.length_cons]
  by_cases hall : endingBackslashes p = p.length
  · by_cases hc : c = '\\'
    · simp [hall, hc, Nat.even_add_one]
    · simp [hall, hc]
  · have hshort : endingBackslashes p ≠ p.length + 1 := by omega
    simp [hall, hshort]

/-! ### Letters and escapes -/

theorem fillPattern_escape (letter : Char → Option (List Char)) (c : Char) (p : List Char) :
    fillPattern letter ('\\' :: c :: p) = c :: fillPattern letter p := by
  rw [fillPattern]

theorem fillPattern_cons_of_ne (letter : Char → Option (List Char)) (hc : c ≠ '\\')
    (p : List Char) :
    fillPattern letter (c :: p) = (letter c).getD [c] ++ fillPattern letter p := by
  rw [fillPattern]
  · exact fun h => absurd h hc
  · exact fun _ _ h => absurd h hc

/-- A pattern by its escapes and letters; a backslash may be left over at the end. -/
theorem pattern_induction {motive : List Char → Prop} (nil : motive [])
    (lone : motive ['\\']) (escape : ∀ c p, motive p → motive ('\\' :: c :: p))
    (letter : ∀ c p, c ≠ '\\' → motive p → motive (c :: p)) (p : List Char) : motive p := by
  induction p using fillPattern.induct with
  | case1 => exact nil
  | case2 => exact lone
  | case3 c p ih => exact escape c p ih
  | case4 c p hlone hescape ih =>
    refine letter c p (fun hc => ?_) ih
    cases p with
    | nil => exact hlone hc rfl
    | cons d p => exact hescape d p hc rfl

/-- A pattern that ends within an escape hands its last backslash on to what stands behind it. -/
theorem fillPattern_append (letter : Char → Option (List Char)) (p q : List Char) :
    fillPattern letter (p ++ q) =
      fillPattern letter p ++
        fillPattern letter (if Even (endingBackslashes p) then q else '\\' :: q) := by
  induction p using pattern_induction with
  | nil => rfl
  | lone =>
    rw [if_neg (by decide)]
    rfl
  | escape c p ih =>
    simp only [even_endingBackslashes_escape]
    rw [List.cons_append, List.cons_append, fillPattern_escape, fillPattern_escape, ih,
      List.cons_append]
  | letter c p hc ih =>
    rw [endingBackslashes_cons_of_ne hc, List.cons_append, fillPattern_cons_of_ne letter hc,
      fillPattern_cons_of_ne letter hc, ih, List.append_assoc]

theorem fillPattern_escaped (letter : Char → Option (List Char)) (s : List Char) :
    fillPattern letter (escaped s) = s := by
  induction s with
  | nil => rfl
  | cons c s ih =>
    change fillPattern letter ('\\' :: c :: escaped s) = c :: s
    rw [fillPattern_escape, ih]

theorem fillPattern_congr (h : ∀ c ∈ p, letter c = other c) :
    fillPattern letter p = fillPattern other p := by
  induction p using pattern_induction with
  | nil => rfl
  | lone => rfl
  | escape c p ih =>
    rw [fillPattern_escape, fillPattern_escape,
      ih fun d hd => h d (List.mem_cons_of_mem _ (List.mem_cons_of_mem c hd))]
  | letter c p hc ih =>
    obtain ⟨hhead, hrest⟩ := List.forall_mem_cons.mp h
    rw [fillPattern_cons_of_ne letter hc, fillPattern_cons_of_ne other hc, hhead, ih hrest]

end

/-! ### Date-times -/

namespace DateTime

theorem letter_eq_part (t : DateTime) {c : Char} (hc : c ≠ 'c') (hr : c ≠ 'r') :
    t.letter c = t.part c := by
  unfold letter
  split
  · exact absurd rfl hc
  · exact absurd rfl hr
  · rfl

/-- The patterns that a letter stands for have no such letters in them. -/
theorem fillPattern_part (t : DateTime) {p : List Char} (hc : 'c' ∉ p) (hr : 'r' ∉ p) :
    fillPattern t.part p = t.format p := by
  refine (fillPattern_congr fun c hmem => ?_).symm
  exact t.letter_eq_part (fun h => hc (h ▸ hmem)) fun h => hr (h ▸ hmem)

theorem format_letter (t : DateTime) {c : Char} (hc : c ≠ '\\') :
    t.format [c] = (t.letter c).getD [c] := by
  rw [format, fillPattern_cons_of_ne t.letter hc]
  exact List.append_nil _

theorem format_atomLetter (t : DateTime) : t.format ['c'] = t.format atomPattern := by
  have hpattern : 'c' ∉ atomPattern ∧ 'r' ∉ atomPattern := by decide
  rw [t.format_letter (by decide), ← t.fillPattern_part hpattern.1 hpattern.2]
  rfl

theorem format_letterHeadLetter (t : DateTime) :
    t.format ['r'] = t.format letterHeadPattern := by
  have hpattern : 'c' ∉ letterHeadPattern ∧ 'r' ∉ letterHeadPattern := by decide
  rw [t.format_letter (by decide), ← t.fillPattern_part hpattern.1 hpattern.2]
  rfl

/-- The day of the month takes two characters, so a `d` that is escaped is not written as one that
is not. -/
theorem format_day_ne (t : DateTime) : t.format ['d'] ≠ ['d'] := by
  intro h
  have hlength := congrArg List.length h
  rw [t.format_letter (by decide)] at hlength
  change (Text.padded 2 t.date.day).length = 1 at hlength
  rw [Text.padded, Text.padZeros, List.length_append, List.length_replicate] at hlength
  omega

/-- Cutting a pattern is safe exactly where no escape is cut in two, and escaped text is written as
it is. -/
theorem format_homomorphism (t : DateTime) :
    (∀ p, Even (endingBackslashes p) ↔ ∀ q, t.format (p ++ q) = t.format p ++ t.format q) ∧
      (∀ s, t.format (escaped s) = s) ∧
      t.format ['c'] = t.format atomPattern ∧ t.format ['r'] = t.format letterHeadPattern := by
  refine ⟨fun p => ⟨fun hp q => ?_, fun hsplit => ?_⟩, fillPattern_escaped t.letter,
    t.format_atomLetter, t.format_letterHeadLetter⟩
  · rw [format, fillPattern_append, if_pos hp]
    rfl
  · by_contra hp
    have hescape : t.format (p ++ ['d']) = t.format p ++ ['d'] := by
      rw [format, fillPattern_append, if_neg hp, fillPattern_escape]
      rfl
    rw [hsplit] at hescape
    exact t.format_day_ne (List.append_cancel_left hescape)

end DateTime

end Placeholder.Calendar
