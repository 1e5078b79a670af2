import Mathlib
import Placeholder.Proofs.Searching
import Placeholder.Proofs.Trimming
import Placeholder.Temporal.Grammar

/-!
# The texts of temporal lexemes

The texts that are one condition, and where a condition ends in a longer text: as it is written, if
white space, a parenthesis or an operator follows, and a character too early, if it ends in the
character of the operator right behind it.
-/

namespace Placeholder.Temporal

open Text (Padding Trimmed EndsVisible isBlank trim trimStart not_blank_of_isDigit)

def plain (ls : List Located) : List Lexeme :=
  ls.map Located.lexeme

/-! ### Times -/

theorem takeClock?_written {hour : List Char} (hhour : ∀ c ∈ hour, c.isDigit = true) {a b : Char}
    (hfits : (hour.length = 1 ∨ hour.length = 2) ∧ Text.digitsValue hour < 24 ∧ a.isDigit ∧
      b.isDigit ∧ Text.digitValue a < 6) (rest : List Char) :
    takeClock? (hour ++ ':' :: a :: b :: rest) =
      some (Text.digitsValue hour, Text.digitsValue [a, b], rest) := by
  have htake : (hour ++ ':' :: a :: b :: rest).takeWhile Char.isDigit = hour := by
    rw [List.takeWhile_append_of_pos hhour]
    exact List.append_nil hour
  have hdrop : (hour ++ ':' :: a :: b :: rest).dropWhile Char.isDigit = ':' :: a :: b :: rest := by
    rw [List.dropWhile_append_of_pos hhour]
    rfl
  simp only [takeClock?, htake, hdrop]
  rw [if_pos hfits]

theorem exists_of_takeClock? {cs rest : List Char} {hour minute : Nat}
    (h : takeClock? cs = some (hour, minute, rest)) :
    ∃ digits a b, (∀ c ∈ digits, c.isDigit = true) ∧
      ((digits.length = 1 ∨ digits.length = 2) ∧ Text.digitsValue digits < 24 ∧ a.isDigit ∧
        b.isDigit ∧ Text.digitValue a < 6) ∧
      Text.digitsValue digits = hour ∧ Text.digitsValue [a, b] = minute ∧
      cs = digits ++ ':' :: a :: b :: rest := by
  unfold takeClock? at h
  split at h
  · rename_i a b tail hdrop
    dsimp only at h
    split at h
    · rename_i hfits
      cases h
      refine ⟨_, a, b, fun c hc => List.mem_takeWhile_imp hc, hfits, rfl, rfl, ?_⟩
      rw [← hdrop]
      exact List.takeWhile_append_dropWhile.symm
    · cases h
  · cases h

theorem takeClock?_append {cs rest : List Char} {hour minute : Nat}
    (h : takeClock? cs = some (hour, minute, rest)) (more : List Char) :
    takeClock? (cs ++ more) = some (hour, minute, rest ++ more) := by
  obtain ⟨digits, a, b, hdigits, hfits, rfl, rfl, rfl⟩ := exists_of_takeClock? h
  have hwritten := takeClock?_written hdigits hfits (rest ++ more)
  rw [List.append_assoc]
  exact hwritten

theorem takeClockPair?_append {cs rest : List Char} {start stop : Nat × Nat}
    (h : takeClockPair? cs = some (start, stop, rest)) (more : List Char) :
    takeClockPair? (cs ++ more) = some (start, stop, rest ++ more) := by
  unfold takeClockPair? at h
  split at h
  · rename_i hour minute tail hfirst
    obtain ⟨⟨hour', minute', left⟩, hsecond, heq⟩ := Option.map_eq_some_iff.mp h
    cases heq
    have hfirst' := takeClock?_append hfirst more
    have hsecond' := takeClock?_append hsecond more
    simp only [takeClockPair?, hfirst', List.cons_append, hsecond', Option.map_some]
  · cases h

theorem endsVisible_of_takeClockPair? {cs : List Char} {start stop : Nat × Nat}
    (h : takeClockPair? cs = some (start, stop, [])) : EndsVisible cs := by
  unfold takeClockPair? at h
  split at h
  · rename_i hour minute tail hfirst
    obtain ⟨⟨hour', minute', left⟩, hsecond, heq⟩ := Option.map_eq_some_iff.mp h
    cases heq
    obtain ⟨first, a, b, -, -, -, -, rfl⟩ := exists_of_takeClock? hfirst
    obtain ⟨second, c, d, -, hfits, -, -, rfl⟩ := exists_of_takeClock? hsecond
    have hd : isBlank d = false := not_blank_of_isDigit hfits.2.2.2.1
    refine ⟨first ++ ':' :: a :: b :: '-' :: (second ++ [':', c]), d, ?_, hd⟩
    simp
  · cases h

theorem exists_of_takeClockPair? {cs rest : List Char} {start stop : Nat × Nat}
    (h : takeClockPair? cs = some (start, stop, rest)) :
    ∃ front, cs = front ++ rest ∧ takeClockPair? front = some (start, stop, []) := by
  unfold takeClockPair? at h
  split at h
  · rename_i hour minute tail hfirst
    obtain ⟨⟨hour', minute', left⟩, hsecond, heq⟩ := Option.map_eq_some_iff.mp h
    cases heq
    obtain ⟨first, a, b, hdigits, hfits, rfl, rfl, rfl⟩ := exists_of_takeClock? hfirst
    obtain ⟨second, c, d, hdigits', hfits', rfl, rfl, rfl⟩ := exists_of_takeClock? hsecond
    have hstart := takeClock?_written hdigits hfits ('-' :: (second ++ [':', c, d]))
    have hstop := takeClock?_written hdigits' hfits' []
    refine ⟨first ++ ':' :: a :: b :: '-' :: (second ++ [':', c, d]), by simp, ?_⟩
    simp only [takeClockPair?, hstart, hstop, Option.map_some]
  · cases h

theorem takeClockPair?_of_not_digit {c : Char} (hc : c.isDigit = false) (cs : List Char) :
    takeClockPair? (c :: cs) = none := by
  have hclock : takeClock? (c :: cs) = none := by
    simp only [takeClock?, List.takeWhile_cons, List.dropWhile_cons, hc, Bool.false_eq_true, if_false]
    split
    · rename_i heq
      simp
    · rfl
  simp [takeClockPair?, hclock]

/-- The text of a time range starts with a digit, so that it has no leading word. -/
theorem isDigit_of_takeClockPair? {c : Char} {cs : List Char}
    {found : (Nat × Nat) × (Nat × Nat) × List Char} (h : takeClockPair? (c :: cs) = some found) :
    c.isDigit = true := by
  by_contra hc
  rw [takeClockPair?_of_not_digit (by simpa using hc)] at h
  cases h

theorem not_marked_of_takeClockPair? {c : Char} (hc : c.isDigit = false) {word cs : List Char}
    {found : (Nat × Nat) × (Nat × Nat) × List Char} (h : takeClockPair? cs = some found) :
    ¬ c :: word <+: cs := by
  rintro ⟨tail, rfl⟩
  have hdigit := isDigit_of_takeClockPair? h
  rw [hc] at hdigit
  contradiction

namespace Lexeme

/-! ### Breaks -/

theorem atBreak_cons (c : Char) (cs : List Char) :
    atBreak (c :: cs) = true ↔
      c = '(' ∨ c = ')' ∨ (c = '&' ∨ c = '|') ∧ cs.head? = some c := by
  constructor
  · intro h
    unfold atBreak at h
    split at h <;> rename_i heq
    · cases heq
      exact Or.inr (Or.inr ⟨Or.inl rfl, rfl⟩)
    · cases heq
      exact Or.inr (Or.inr ⟨Or.inr rfl, rfl⟩)
    · cases heq
      exact Or.inl rfl
    · cases heq
      exact Or.inr (Or.inl rfl)
    · cases h
  · rintro (rfl | rfl | ⟨rfl | rfl, hhead⟩)
    · rfl
    · rfl
    · obtain ⟨tail, rfl⟩ := List.head?_eq_some_iff.mp hhead
      rfl
    · obtain ⟨tail, rfl⟩ := List.head?_eq_some_iff.mp hhead
      rfl

theorem atWordBreak_cons (c : Char) (cs : List Char) :
    atWordBreak (c :: cs) = true ↔ atBreak (c :: cs) = true ∨ isBlank c = true := by
  simp [atWordBreak]

/-- A text in which `stops` holds nowhere. -/
def Unbroken (stops : List Char → Bool) (cs : List Char) : Prop :=
  takeUntil stops cs = (cs, [])

theorem takeUntil_cons_of_stops {stops : List Char → Bool} {c : Char} {cs : List Char}
    (h : stops (c :: cs) = true) : takeUntil stops (c :: cs) = ([], c :: cs) := by
  rw [takeUntil, if_pos h]

theorem takeUntil_cons_of_not {stops : List Char → Bool} {c : Char} {cs : List Char}
    (h : stops (c :: cs) = false) :
    takeUntil stops (c :: cs) = (c :: (takeUntil stops cs).1, (takeUntil stops cs).2) := by
  rw [takeUntil, h]
  rfl

theorem unbroken_cons {stops : List Char → Bool} {c : Char} {cs : List Char} :
    Unbroken stops (c :: cs) ↔ stops (c :: cs) = false ∧ Unbroken stops cs := by
  unfold Unbroken
  cases h : stops (c :: cs) with
  | true => simp [takeUntil_cons_of_stops h]
  | false => simp [takeUntil_cons_of_not h, Prod.ext_iff]

theorem unbroken_append {stops : List Char → Bool}
    (hmono : ∀ a b, stops a = true → stops (a ++ b) = true) {a b : List Char}
    (h : Unbroken stops (a ++ b)) : Unbroken stops a ∧ Unbroken stops b := by
  induction a with
  | nil => exact ⟨rfl, h⟩
  | cons c a ih =>
    rw [List.cons_append, unbroken_cons] at h
    obtain ⟨hhead, htail⟩ := h
    obtain ⟨ha, hb⟩ := ih htail
    refine ⟨unbroken_cons.mpr ⟨?_, ha⟩, hb⟩
    by_contra hstops
    have hlong := hmono (c :: a) b (by simpa using hstops)
    rw [List.cons_append, hhead] at hlong
    contradiction

theorem takeUntil_append_snd (stops : List Char → Bool) (cs : List Char) :
    (takeUntil stops cs).1 ++ (takeUntil stops cs).2 = cs := by
  induction cs with
  | nil => rfl
  | cons c cs ih =>
    cases h : stops (c :: cs) with
    | true => rw [takeUntil_cons_of_stops h, List.nil_append]
    | false => rw [takeUntil_cons_of_not h, List.cons_append, ih]

theorem unbroken_takeUntil {stops : List Char → Bool}
    (hmono : ∀ a b, stops a = true → stops (a ++ b) = true) (cs : List Char) :
    Unbroken stops (takeUntil stops cs).1 := by
  induction cs with
  | nil => rfl
  | cons c cs ih =>
    cases h : stops (c :: cs) with
    | true =>
      rw [takeUntil_cons_of_stops h]
      rfl
    | false =>
      rw [takeUntil_cons_of_not h, unbroken_cons]
      refine ⟨?_, ih⟩
      by_contra hstops
      have hlong := hmono _ (takeUntil stops cs).2 (by simpa using hstops)
      rw [List.cons_append, takeUntil_append_snd, h] at hlong
      contradiction

theorem atBreak_append (a b : List Char) (h : atBreak a = true) :
    atBreak (a ++ b) = true := by
  cases a with
  | nil => cases h
  | cons c a =>
    rw [List.cons_append, atBreak_cons]
    rcases (atBreak_cons c a).mp h with rfl | rfl | ⟨hc, hhead⟩
    · simp
    · simp
    · obtain ⟨tail, rfl⟩ := List.head?_eq_some_iff.mp hhead
      exact Or.inr (Or.inr ⟨hc, rfl⟩)

theorem atWordBreak_append (a b : List Char) (h : atWordBreak a = true) :
    atWordBreak (a ++ b) = true := by
  cases a with
  | nil => cases h
  | cons c a =>
    rw [List.cons_append, atWordBreak_cons]
    rcases (atWordBreak_cons c a).mp h with hbreak | hblank
    · exact Or.inl (atBreak_append (c :: a) b hbreak)
    · exact Or.inr hblank

/-- The end of one text and the start of the next are not the same character. -/
def Apart (cs rest : List Char) : Prop :=
  ∀ c ∈ cs.getLast?, c ∉ rest.head?

theorem apart_nil (rest : List Char) : Apart [] rest := by
  intro c hc
  cases hc

/-- What looks at two characters at most finds nothing at the seam of texts that are apart. -/
theorem takeUntil_append {stops : List Char → Bool} {rest : List Char}
    (hpair : ∀ c d a b, stops (c :: d :: a) = stops (c :: d :: b))
    (hlast : ∀ c, c ∉ rest.head? → stops [c] = false → stops (c :: rest) = false)
    {cs : List Char} (h : Unbroken stops cs) (hapart : Apart cs rest) :
    takeUntil stops (cs ++ rest) = (cs ++ (takeUntil stops rest).1, (takeUntil stops rest).2) := by
  induction cs with
  | nil => rfl
  | cons c cs ih =>
    obtain ⟨hhead, htail⟩ := unbroken_cons.mp h
    have happart : Apart cs rest := by
      cases cs with
      | nil => exact apart_nil rest
      | cons d cs =>
        intro e he
        exact hapart e (by rwa [List.getLast?_cons_cons])
    have hlong : stops (c :: (cs ++ rest)) = false := by
      cases cs with
      | nil => exact hlast c (hapart c rfl) hhead
      | cons d cs => exact (hpair c d (cs ++ rest) cs).trans hhead
    rw [List.cons_append, takeUntil_cons_of_not hlong, ih htail happart]
    rfl

/-- What looks at two characters at most finds its first stop where the last character of an unbroken
text is followed by more. -/
theorem takeUntil_before {stops : List Char → Bool}
    (hpair : ∀ c d a b, stops (c :: d :: a) = stops (c :: d :: b)) {cs : List Char} {c : Char}
    {rest : List Char} (h : Unbroken stops (cs ++ [c])) (hstops : stops (c :: rest) = true) :
    takeUntil stops (cs ++ c :: rest) = (cs, c :: rest) := by
  induction cs with
  | nil => exact takeUntil_cons_of_stops hstops
  | cons d cs ih =>
    obtain ⟨hhead, htail⟩ := unbroken_cons.mp h
    have hlong : stops (d :: (cs ++ c :: rest)) = false := by
      cases cs with
      | nil => exact (hpair d c rest []).trans hhead
      | cons e cs => exact (hpair d e (cs ++ c :: rest) (cs ++ [c])).trans hhead
    rw [List.cons_append, takeUntil_cons_of_not hlong, ih htail]

theorem atBreak_pair (c d : Char) (a b : List Char) :
    atBreak (c :: d :: a) = atBreak (c :: d :: b) := by
  rw [Bool.eq_iff_iff, atBreak_cons, atBreak_cons]
  rfl

theorem atBreak_last {c : Char} {rest : List Char} (hc : c ∉ rest.head?)
    (h : atBreak [c] = false) : atBreak (c :: rest) = false := by
  rw [← Bool.not_eq_true, atBreak_cons] at h ⊢
  rintro (hopening | hclosing | ⟨-, hhead⟩)
  · exact h (Or.inl hopening)
  · exact h (Or.inr (Or.inl hclosing))
  · exact hc hhead

theorem atWordBreak_pair (c d : Char) (a b : List Char) :
    atWordBreak (c :: d :: a) = atWordBreak (c :: d :: b) := by
  rw [Bool.eq_iff_iff, atWordBreak_cons, atWordBreak_cons, atBreak_pair c d a b]

theorem atWordBreak_last {c : Char} {rest : List Char} (hc : c ∉ rest.head?)
    (h : atWordBreak [c] = false) : atWordBreak (c :: rest) = false := by
  rw [← Bool.not_eq_true, atWordBreak_cons, not_or] at h ⊢
  refine ⟨?_, h.2⟩
  rw [Bool.not_eq_true]
  exact atBreak_last hc (by simpa using h.1)

/-! ### Names -/

/-- What ends a condition: nothing more, a blank or a symbol that cannot belong to a name. -/
def Ends (rest : List Char) : Prop :=
  ∀ c ∈ rest.head?, isBlank c = true ∨ c = '(' ∨ c = ')' ∨ c = '&' ∨ c = '|'

theorem isNamePart_of_blank {c : Char} (h : isBlank c = true) : Text.isNamePart c = false := by
  by_contra hname
  simp only [Text.isNamePart, Bool.not_eq_false, Bool.or_eq_true, Char.isAlphanum, Char.isAlpha,
    Char.isUpper, Char.isLower, Char.isDigit, Bool.and_eq_true, decide_eq_true_eq, beq_iff_eq,
    ge_iff_le, UInt32.le_iff_toNat_le] at hname
  simp only [isBlank, Bool.or_eq_true, Bool.and_eq_true, decide_eq_true_eq, beq_iff_eq] at h
  rcases hname with hrange | rfl
  · change (65 ≤ c.toNat ∧ c.toNat ≤ 90 ∨ 97 ≤ c.toNat ∧ c.toNat ≤ 122) ∨
      48 ≤ c.toNat ∧ c.toNat ≤ 57 at hrange
    omega
  · revert h
    decide

theorem Ends.not_namePart {rest : List Char} (h : Ends rest) :
    ∀ c ∈ rest.head?, Text.isNamePart c = false := by
  intro c hc
  rcases h c hc with hblank | rfl | rfl | rfl | rfl
  · exact isNamePart_of_blank hblank
  · rfl
  · rfl
  · rfl
  · rfl

theorem takeWhile_namePart_append {name rest : List Char}
    (hname : ∀ c ∈ name, Text.isNamePart c = true)
    (hrest : ∀ c ∈ rest.head?, Text.isNamePart c = false) :
    (name ++ rest).takeWhile Text.isNamePart = name := by
  rw [List.takeWhile_append_of_pos hname]
  cases rest with
  | nil => exact List.append_nil name
  | cons c rest =>
    rw [List.takeWhile_cons, hrest c rfl]
    exact List.append_nil name

theorem takeName_append {c : Char} {cs rest : List Char} (hc : Text.isNameStart c = true)
    (hcs : ∀ d ∈ cs, Text.isNamePart d = true)
    (hrest : ∀ d ∈ rest.head?, Text.isNamePart d = false) :
    Text.takeName (c :: cs ++ rest) = (c :: cs, rest) := by
  have hparts := takeWhile_namePart_append hcs hrest
  have hafter : (cs ++ rest).dropWhile Text.isNamePart = rest := by
    have hwhole := List.takeWhile_append_dropWhile (p := Text.isNamePart) (l := cs ++ rest)
    rw [hparts] at hwhole
    exact List.append_cancel_left hwhole
  rw [List.cons_append, Text.takeName, if_pos hc, hparts, hafter]

theorem not_prefix_of_name (word : List Char) (hword : word.all Text.isNamePart = true)
    {name rest : List Char}
    (hname : ∀ c ∈ name, Text.isNamePart c = true) (hrest : Ends rest) :
    ¬ word ++ [':'] <+: name ++ rest := by
  rintro ⟨tail, htail⟩
  rw [List.append_assoc] at htail
  have hleft : (word ++ ':' :: tail).takeWhile Text.isNamePart = word :=
    takeWhile_namePart_append (List.all_eq_true.mp hword) fun c hc => by cases hc; rfl
  have hright := takeWhile_namePart_append hname hrest.not_namePart
  have hsame : word = name := by
    rw [← hleft, ← hright, ← htail]
    rfl
  subst hsame
  have hcolon : ':' :: tail = rest := List.append_cancel_left htail
  have hends := hrest ':' (by rw [← hcolon]; rfl)
  revert hends
  decide

/-! ### Conditions -/

/-- The texts that are one condition. -/
inductive IsCondition : List Char → Prop where
  | cron {spec : List Char} : Trimmed spec → Unbroken atBreak spec →
      IsCondition ("cron:".toList ++ spec)
  | word {cs : List Char} : "nth:".toList <+: cs ∨ "last:".toList <+: cs →
      Unbroken atWordBreak cs → IsCondition cs
  | clocks {cs : List Char} {start stop : Nat × Nat} :
      takeClockPair? cs = some (start, stop, []) → IsCondition cs
  | name {c : Char} {cs : List Char} : Text.isNameStart c = true →
      (∀ d ∈ cs, Text.isNamePart d = true) → IsCondition (c :: cs)

theorem take?_of_not_symbol {c : Char} (h : c ∉ ['&', '|', '!', '(', ')']) (cs : List Char) :
    take? (c :: cs) = takeCondition? (c :: cs) := by
  simp only [List.mem_cons, List.not_mem_nil, or_false, not_or] at h
  unfold take?
  split <;> simp_all

theorem not_symbol {p : Char → Bool} (hp : ['&', '|', '!', '(', ')'].any p = false) {c : Char}
    (hc : p c = true) : c ∉ ['&', '|', '!', '(', ')'] := by
  intro hmem
  have hany : ['&', '|', '!', '(', ')'].any p = true := List.any_eq_true.mpr ⟨c, hmem, hc⟩
  rw [hp] at hany
  contradiction

theorem take?_cron (spec : List Char) :
    take? ("cron:".toList ++ spec) =
      some (condition ("cron:".toList ++ trim (takeUntil atBreak spec).1),
        (takeUntil atBreak spec).2) := by
  have htake : take? ("cron:".toList ++ spec) = takeCondition? ("cron:".toList ++ spec) :=
    take?_of_not_symbol (by decide) _
  rw [htake, takeCondition?, takeMarked?, Text.after?_append]
  rfl

theorem take?_word {cs : List Char} (h : "nth:".toList <+: cs ∨ "last:".toList <+: cs) :
    take? cs = some (condition (takeUntil atWordBreak cs).1, (takeUntil atWordBreak cs).2) := by
  rcases h with ⟨rest, rfl⟩ | ⟨day, rfl⟩
  · rfl
  · rfl

theorem takeMarked?_of_unmarked {cs : List Char} (hcron : ¬ "cron:".toList <+: cs)
    (hnth : ¬ "nth:".toList <+: cs) (hlast : ¬ "last:".toList <+: cs) : takeMarked? cs = none := by
  rw [takeMarked?, (Text.after?_eq_none_iff _ _).mpr hcron]
  rw [← Text.startsWith_iff, Bool.not_eq_true] at hnth hlast
  rw [hnth, hlast]
  rfl

theorem takeMarked?_of_takeClockPair? {cs : List Char} {found : (Nat × Nat) × (Nat × Nat) × List Char}
    (h : takeClockPair? cs = some found) : takeMarked? cs = none :=
  takeMarked?_of_unmarked (not_marked_of_takeClockPair? (by decide) h)
    (not_marked_of_takeClockPair? (by decide) h) (not_marked_of_takeClockPair? (by decide) h)

theorem take?_clocks {cs rest : List Char} {start stop : Nat × Nat}
    (h : takeClockPair? cs = some (start, stop, rest)) :
    take? cs = some (condition (cs.take (cs.length - rest.length)), rest) := by
  cases cs with
  | nil => cases h
  | cons c cs =>
    have hsymbol := not_symbol (p := Char.isDigit) (by decide) (isDigit_of_takeClockPair? h)
    rw [take?_of_not_symbol hsymbol, takeCondition?, takeMarked?_of_takeClockPair? h,
      takeTimeRange?, h]
    rfl

theorem isNamePart_of_isNameStart {c : Char} (h : Text.isNameStart c = true) :
    Text.isNamePart c = true := by
  simp only [Text.isNameStart, Text.isNamePart, Char.isAlphanum, Bool.or_eq_true] at h ⊢
  exact h.imp_left Or.inl

theorem not_isDigit_of_isNameStart {c : Char} (h : Text.isNameStart c = true) :
    c.isDigit = false := by
  by_contra hdigit
  simp only [Text.isNameStart, Bool.not_eq_false, Bool.or_eq_true, Char.isAlpha, Char.isUpper,
    Char.isLower, Char.isDigit, Bool.and_eq_true, decide_eq_true_eq, beq_iff_eq, ge_iff_le,
    UInt32.le_iff_toNat_le] at h hdigit
  change 48 ≤ c.toNat ∧ c.toNat ≤ 57 at hdigit
  rcases h with hrange | rfl
  · change 65 ≤ c.toNat ∧ c.toNat ≤ 90 ∨ 97 ≤ c.toNat ∧ c.toNat ≤ 122 at hrange
    omega
  · revert hdigit
    decide

theorem take?_name {c : Char} {cs rest : List Char} (hc : Text.isNameStart c = true)
    (hcs : ∀ d ∈ cs, Text.isNamePart d = true) (hrest : Ends rest) :
    take? (c :: cs ++ rest) = some (condition (c :: cs), rest) := by
  have hname : ∀ d ∈ c :: cs, Text.isNamePart d = true :=
    List.forall_mem_cons.mpr ⟨isNamePart_of_isNameStart hc, hcs⟩
  have hmarked : takeMarked? (c :: cs ++ rest) = none :=
    takeMarked?_of_unmarked (not_prefix_of_name "cron".toList rfl hname hrest)
      (not_prefix_of_name "nth".toList rfl hname hrest)
      (not_prefix_of_name "last".toList rfl hname hrest)
  have hdigit := not_isDigit_of_isNameStart hc
  have hclocks : takeTimeRange? (c :: cs ++ rest) = none := by
    rw [takeTimeRange?, List.cons_append, takeClockPair?_of_not_digit hdigit]
    rfl
  have hidentifier : takeIdentifier? (c :: cs ++ rest) = some (condition (c :: cs), rest) := by
    rw [takeIdentifier?, takeName_append hc hcs hrest.not_namePart]
    rfl
  have hsymbol := not_symbol (p := Text.isNameStart) (by decide) hc
  rw [List.cons_append] at hmarked hclocks hidentifier ⊢
  rw [take?_of_not_symbol hsymbol, takeCondition?, hmarked, hclocks, hidentifier]
  rfl

theorem not_blank_of_unbroken {cs : List Char} (h : Unbroken atWordBreak cs) :
    ∀ c ∈ cs, isBlank c = false := by
  induction cs with
  | nil =>
    intro c hc
    cases hc
  | cons d cs ih =>
    obtain ⟨hhead, htail⟩ := unbroken_cons.mp h
    refine List.forall_mem_cons.mpr ⟨?_, ih htail⟩
    by_contra hblank
    have hstops := (atWordBreak_cons d cs).mpr (Or.inr (by simpa using hblank))
    rw [hhead] at hstops
    contradiction

theorem not_blank_of_isNamePart {c : Char} (h : Text.isNamePart c = true) : isBlank c = false := by
  by_contra hblank
  rw [isNamePart_of_blank (by simpa using hblank)] at h
  contradiction

theorem IsCondition.visible {cs : List Char} (h : IsCondition cs) :
    ∃ c tail, cs = c :: tail ∧ isBlank c = false ∧ EndsVisible cs := by
  cases h with
  | @cron spec hspec hbreak =>
    refine ⟨'c', _, rfl, rfl, ?_⟩
    by_cases hne : spec = []
    · subst hne
      exact ⟨"cron".toList, ':', rfl, rfl⟩
    · exact (hspec.endsVisible hne).append_left _
  | word hword hbreak =>
    have hblank := not_blank_of_unbroken hbreak
    rcases hword with ⟨rest, rfl⟩ | ⟨day, rfl⟩
    · exact ⟨'n', _, rfl, rfl, Text.Visible.endsVisible ⟨by simp, hblank⟩⟩
    · exact ⟨'l', _, rfl, rfl, Text.Visible.endsVisible ⟨by simp, hblank⟩⟩
  | clocks hpair =>
    cases cs with
    | nil => cases hpair
    | cons c cs =>
      have hc := not_blank_of_isDigit (isDigit_of_takeClockPair? hpair)
      exact ⟨c, cs, rfl, hc, endsVisible_of_takeClockPair? hpair⟩
  | @name c cs hc hcs =>
    have hname : ∀ d ∈ c :: cs, Text.isNamePart d = true :=
      List.forall_mem_cons.mpr ⟨isNamePart_of_isNameStart hc, hcs⟩
    have hblank : ∀ d ∈ c :: cs, isBlank d = false := fun d hd => not_blank_of_isNamePart (hname d hd)
    exact ⟨c, cs, rfl, hblank c List.mem_cons_self,
      Text.Visible.endsVisible ⟨List.cons_ne_nil c cs, hblank⟩⟩

/-! ### Where a condition ends -/

theorem Apart.of_append {a b rest : List Char} (h : Apart (a ++ b) rest) : Apart b rest := by
  intro c hc
  refine h c ?_
  rw [List.getLast?_append, show b.getLast? = some c from hc]
  rfl

theorem apart_gap {cs gap rest : List Char} (hcs : EndsVisible cs) (hgap : Padding gap)
    (h : gap = [] → Apart cs rest) : Apart cs (gap ++ rest) := by
  cases gap with
  | nil => exact h rfl
  | cons b gap =>
    obtain ⟨start, d, rfl, hd⟩ := hcs
    intro c hc hhead
    rw [List.getLast?_concat] at hc
    cases hc
    cases hhead
    rw [hgap _ List.mem_cons_self] at hd
    contradiction

theorem not_atBreak_of_blank {c : Char} (h : isBlank c = true) (cs : List Char) :
    atBreak (c :: cs) = false := by
  rw [← Bool.not_eq_true, atBreak_cons]
  rintro (rfl | rfl | ⟨rfl | rfl, -⟩) <;> revert h <;> decide

section Gap

variable {gap rest : List Char} (hgap : Padding gap) (hrest : rest = [] ∨ atBreak rest = true)
include hgap hrest

theorem ends_gap : Ends (gap ++ rest) := by
  cases gap with
  | cons b gap =>
    intro c hc
    cases hc
    exact Or.inl (hgap b List.mem_cons_self)
  | nil =>
    cases rest with
    | nil =>
      intro c hc
      cases hc
    | cons b rest =>
      intro c hc
      cases hc
      have hbreak := hrest.resolve_left (List.cons_ne_nil b rest)
      rcases (atBreak_cons b rest).mp hbreak with rfl | rfl | ⟨rfl | rfl, -⟩ <;> simp

theorem takeUntil_atBreak_gap : takeUntil atBreak (gap ++ rest) = (gap, rest) := by
  induction gap with
  | nil =>
    cases rest with
    | nil => rfl
    | cons b rest =>
      exact takeUntil_cons_of_stops (hrest.resolve_left (List.cons_ne_nil b rest))
  | cons b gap ih =>
    have hblank := hgap b List.mem_cons_self
    rw [List.cons_append, takeUntil_cons_of_not (not_atBreak_of_blank hblank _),
      ih (fun c hc => hgap c (List.mem_cons_of_mem b hc))]

theorem takeUntil_atWordBreak_gap : takeUntil atWordBreak (gap ++ rest) = ([], gap ++ rest) := by
  cases gap with
  | cons b gap =>
    exact takeUntil_cons_of_stops
      ((atWordBreak_cons b _).mpr (Or.inr (hgap b List.mem_cons_self)))
  | nil =>
    cases rest with
    | nil => rfl
    | cons b rest =>
      have hbreak := hrest.resolve_left (List.cons_ne_nil b rest)
      exact takeUntil_cons_of_stops ((atWordBreak_cons b rest).mpr (Or.inl hbreak))

/-- A condition is taken as it is written; blanks behind it may be passed over with it. -/
theorem take?_condition {cs : List Char} (h : IsCondition cs) (hapart : gap = [] → Apart cs rest) :
    ∃ left, left <:+ gap ∧ take? (cs ++ (gap ++ rest)) = some (condition cs, left ++ rest) := by
  obtain ⟨-, -, -, -, hvisible⟩ := h.visible
  have hseam := apart_gap hvisible hgap hapart
  cases h with
  | @cron spec hspec hbreak =>
    refine ⟨[], List.nil_suffix, ?_⟩
    have htake : takeUntil atBreak (spec ++ (gap ++ rest)) = (spec ++ gap, rest) := by
      rw [takeUntil_append atBreak_pair (fun c => atBreak_last) hbreak hseam.of_append,
        takeUntil_atBreak_gap hgap hrest]
    have htrim : trim (spec ++ gap) = spec :=
      (Text.trim_padded Text.padding_nil hgap spec).trans hspec
    rw [List.append_assoc, take?_cron, htake, htrim]
    rfl
  | word hword hbreak =>
    refine ⟨gap, List.suffix_rfl, ?_⟩
    have hlonger := hword.imp (fun h => h.trans (List.prefix_append cs (gap ++ rest)))
      (fun h => h.trans (List.prefix_append cs (gap ++ rest)))
    rw [take?_word hlonger, takeUntil_append atWordBreak_pair (fun c => atWordBreak_last) hbreak hseam,
      takeUntil_atWordBreak_gap hgap hrest, List.append_nil]
  | clocks hpair =>
    refine ⟨gap, List.suffix_rfl, ?_⟩
    rw [take?_clocks (takeClockPair?_append hpair (gap ++ rest))]
    simp
  | name hc hcs => exact ⟨gap, List.suffix_rfl, take?_name hc hcs (ends_gap hgap hrest)⟩

end Gap

theorem isCondition_cron (spec : List Char) :
    IsCondition ("cron:".toList ++ trim (takeUntil atBreak spec).1) := by
  obtain ⟨a, b, -, -, hsplit⟩ := Text.exists_padding_trim (takeUntil atBreak spec).1
  have hbreak := unbroken_takeUntil atBreak_append spec
  rw [hsplit] at hbreak
  have hleft := (unbroken_append atBreak_append hbreak).1
  exact .cron (Text.trimmed_trim _) (unbroken_append atBreak_append hleft).2

theorem isCondition_word {cs : List Char} (h : "nth:".toList <+: cs ∨ "last:".toList <+: cs) :
    IsCondition (takeUntil atWordBreak cs).1 := by
  refine .word ?_ (unbroken_takeUntil atWordBreak_append cs)
  rcases h with ⟨rest, rfl⟩ | ⟨day, rfl⟩
  · exact Or.inl ⟨_, rfl⟩
  · exact Or.inr ⟨_, rfl⟩

theorem isCondition_of_take? {cs text rest : List Char}
    (h : take? cs = some (condition text, rest)) : IsCondition text := by
  by_cases hcron : "cron:".toList <+: cs
  · obtain ⟨spec, rfl⟩ := hcron
    rw [take?_cron] at h
    cases h
    exact isCondition_cron spec
  by_cases hword : "nth:".toList <+: cs ∨ "last:".toList <+: cs
  · rw [take?_word hword] at h
    cases h
    exact isCondition_word hword
  obtain ⟨hnth, hlast⟩ := not_or.mp hword
  cases hpair : takeClockPair? cs with
  | some found =>
    obtain ⟨start, stop, left⟩ := found
    rw [take?_clocks hpair] at h
    cases h
    obtain ⟨front, rfl, hfront⟩ := exists_of_takeClockPair? hpair
    have htake : (front ++ rest).take ((front ++ rest).length - rest.length) = front := by simp
    rw [htake]
    exact .clocks hfront
  | none =>
    have hcondition : takeCondition? cs = some (condition text, rest) := by
      unfold take? at h
      split at h
      · cases h
      · cases h
      · cases h
      · cases h
      · cases h
      · exact h
    rw [takeCondition?, takeMarked?_of_unmarked hcron hnth hlast, takeTimeRange?, hpair] at hcondition
    cases cs with
    | nil => cases hcondition
    | cons c cs =>
      by_cases hc : Text.isNameStart c = true
      · simp only [Option.map_none, Option.or_none, Option.none_or, takeIdentifier?, Text.takeName,
          hc, if_true] at hcondition
        cases hcondition
        exact .name hc fun d hd => List.mem_takeWhile_imp hd
      · simp [takeIdentifier?, Text.takeName, hc] at hcondition

theorem isCondition_iff (cs : List Char) :
    IsCondition cs ↔ take? cs = some (condition cs, []) := by
  constructor
  · intro h
    have hapart : Apart cs [] := by
      intro c _ hc
      cases hc
    obtain ⟨left, hleft, htake⟩ :=
      take?_condition Text.padding_nil (Or.inl rfl) h fun _ => hapart
    obtain rfl := List.suffix_nil.mp hleft
    simpa using htake
  · exact isCondition_of_take?

/-! ### The characters of a condition -/

theorem unbroken_of_forall {cs : List Char} (h : ∀ c ∈ cs, c ∉ ['&', '|', '!', '(', ')']) :
    Unbroken atBreak cs := by
  induction cs with
  | nil => rfl
  | cons c cs ih =>
    refine unbroken_cons.mpr ⟨?_, ih fun d hd => h d (List.mem_cons_of_mem c hd)⟩
    have hc := h c List.mem_cons_self
    rw [← Bool.not_eq_true, atBreak_cons]
    rintro (rfl | rfl | ⟨rfl | rfl, -⟩) <;> simp at hc

theorem unbroken_of_imp {stops stops' : List Char → Bool}
    (himp : ∀ cs, stops' cs = true → stops cs = true) {cs : List Char} (h : Unbroken stops cs) :
    Unbroken stops' cs := by
  induction cs with
  | nil => rfl
  | cons c cs ih =>
    obtain ⟨hhead, htail⟩ := unbroken_cons.mp h
    refine unbroken_cons.mpr ⟨?_, ih htail⟩
    by_contra hstops
    have hlong := himp (c :: cs) (by simpa using hstops)
    rw [hhead] at hlong
    contradiction

theorem not_symbol_of_takeClockPair? {cs : List Char} {start stop : Nat × Nat}
    (h : takeClockPair? cs = some (start, stop, [])) :
    ∀ c ∈ cs, c ∉ ['&', '|', '!', '(', ')'] := by
  have hdigit : ∀ c : Char, c.isDigit = true → c ∉ ['&', '|', '!', '(', ')'] :=
    fun c hc => not_symbol (p := Char.isDigit) (by decide) hc
  unfold takeClockPair? at h
  split at h
  · rename_i hour minute tail hfirst
    obtain ⟨⟨hour', minute', left⟩, hsecond, heq⟩ := Option.map_eq_some_iff.mp h
    cases heq
    obtain ⟨first, a, b, hdigits, hfits, -, -, rfl⟩ := exists_of_takeClock? hfirst
    obtain ⟨second, c, d, hdigits', hfits', -, -, rfl⟩ := exists_of_takeClock? hsecond
    simp only [List.forall_mem_append, List.forall_mem_cons]
    exact ⟨fun e he => hdigit e (hdigits e he), by decide, hdigit a hfits.2.2.1,
      hdigit b hfits.2.2.2.1, by decide, fun e he => hdigit e (hdigits' e he), by decide,
      hdigit c hfits'.2.2.1, hdigit d hfits'.2.2.2.1, fun _ h => by cases h⟩
  · cases h

theorem not_symbol_of_name {c : Char} {cs : List Char} (hc : Text.isNameStart c = true)
    (hcs : ∀ d ∈ cs, Text.isNamePart d = true) :
    ∀ d ∈ c :: cs, d ∉ ['&', '|', '!', '(', ')'] := by
  have hname : ∀ d ∈ c :: cs, Text.isNamePart d = true :=
    List.forall_mem_cons.mpr ⟨isNamePart_of_isNameStart hc, hcs⟩
  exact fun d hd => not_symbol (p := Text.isNamePart) (by decide) (hname d hd)

/-- A condition ends before the first parenthesis and the first doubled operator. -/
theorem IsCondition.unbroken {cs : List Char} (h : IsCondition cs) : Unbroken atBreak cs := by
  cases h with
  | @cron spec _ hspec =>
    change Unbroken atBreak ('c' :: 'r' :: 'o' :: 'n' :: ':' :: spec)
    simp only [unbroken_cons]
    exact ⟨rfl, rfl, rfl, rfl, rfl, hspec⟩
  | word _ hbreak =>
    refine unbroken_of_imp (fun cs h => ?_) hbreak
    simp [atWordBreak, h]
  | clocks hpair => exact unbroken_of_forall (not_symbol_of_takeClockPair? hpair)
  | name hc hcs => exact unbroken_of_forall (not_symbol_of_name hc hcs)

theorem IsCondition.last_ne_closing {cs : List Char} (h : IsCondition cs) :
    ')' ∉ cs.getLast? := by
  intro hlast
  obtain ⟨front, rfl⟩ := List.getLast?_eq_some_iff.mp hlast
  have hbreak := (unbroken_append atBreak_append h.unbroken).2
  exact absurd (unbroken_cons.mp hbreak).1 (by decide)

theorem IsCondition.head_not_symbol {cs : List Char} (h : IsCondition cs) :
    ∀ c ∈ cs.head?, c ∉ ['&', '|', '!', '(', ')'] := by
  cases h with
  | cron _ _ =>
    intro c hc
    cases hc
    decide
  | word hword _ =>
    intro c hc
    rcases hword with ⟨rest, rfl⟩ | ⟨day, rfl⟩ <;> cases hc <;> decide
  | clocks hpair =>
    exact fun c hc => not_symbol_of_takeClockPair? hpair c (List.mem_of_mem_head? hc)
  | name hc hcs => exact fun d hd => not_symbol_of_name hc hcs d (List.mem_of_mem_head? hd)

/-- Behind a condition that ends in the character of an operator right behind it, three of these
characters are in a row, and the condition loses its last one. -/
theorem take?_short {cs : List Char} {c : Char} (hc : c = '&' ∨ c = '|')
    (h : IsCondition (cs ++ [c])) (rest : List Char) :
    ∃ short, take? (cs ++ c :: c :: c :: rest) = some (condition short, c :: c :: c :: rest) := by
  have hstops : atBreak (c :: c :: c :: rest) = true := by rcases hc with rfl | rfl <;> rfl
  have hword : atWordBreak (c :: c :: c :: rest) = true :=
    (atWordBreak_cons c _).mpr (Or.inl hstops)
  have hsymbol : c ∈ ['&', '|', '!', '(', ')'] := by rcases hc with rfl | rfl <;> decide
  generalize hwhole : cs ++ [c] = whole at h
  cases h with
  | @cron spec _ hspec =>
    rcases List.eq_nil_or_concat' spec with rfl | ⟨start, d, rfl⟩
    · have hcolon : c = ':' := (List.append_inj' (hwhole.trans (by rfl :
        "cron:".toList ++ [] = "cron".toList ++ [':'])) rfl).2 |> List.singleton_inj.mp
      subst hcolon
      exact absurd hsymbol (by decide)
    · rw [← List.append_assoc] at hwhole
      obtain ⟨rfl, hlast⟩ := List.append_inj' hwhole rfl
      obtain rfl := List.singleton_inj.mp hlast
      rw [List.append_assoc, take?_cron, takeUntil_before atBreak_pair hspec hstops]
      exact ⟨_, rfl⟩
  | word hprefix hbreak =>
    subst hwhole
    have hlonger : cs ++ [c] <+: cs ++ c :: c :: c :: rest := ⟨c :: c :: rest, by simp⟩
    have hmarked := hprefix.imp (fun h => h.trans hlonger) (fun h => h.trans hlonger)
    rw [take?_word hmarked, takeUntil_before atWordBreak_pair hbreak hword]
    exact ⟨cs, rfl⟩
  | clocks hpair =>
    rw [← hwhole] at hpair
    exact absurd hsymbol (not_symbol_of_takeClockPair? hpair c (by simp))
  | @name d ds hd hds =>
    have hmem : c ∈ d :: ds := by rw [← hwhole]; simp
    exact absurd hsymbol (not_symbol_of_name hd hds c hmem)

theorem take?_eq_none {c : Char} (hc : c = '&' ∨ c = '|') {cs : List Char}
    (hhead : c ∉ cs.head?) : take? (c :: cs) = none := by
  have hunmarked : ∀ word : List Char, word.head? ≠ some c → word ≠ [] → ¬ word <+: c :: cs := by
    intro word hword hne hprefix
    obtain ⟨d, tail, rfl⟩ := List.exists_cons_of_ne_nil hne
    exact hword (congrArg some (List.cons_prefix_cons.mp hprefix).1)
  have hdigit : c.isDigit = false := by rcases hc with rfl | rfl <;> rfl
  have hname : Text.isNameStart c = false := by rcases hc with rfl | rfl <;> rfl
  have hcondition : takeCondition? (c :: cs) = none := by
    rw [takeCondition?, takeMarked?_of_unmarked (hunmarked _ ?_ ?_) (hunmarked _ ?_ ?_)
      (hunmarked _ ?_ ?_), takeTimeRange?, takeClockPair?_of_not_digit hdigit, takeIdentifier?,
      Text.takeName, hname]
    · rfl
    all_goals rcases hc with rfl | rfl <;> decide
  rcases hc with rfl | rfl
  · unfold take?
    split <;> simp_all
  · unfold take?
    split <;> simp_all

end Lexeme

end Placeholder.Temporal
