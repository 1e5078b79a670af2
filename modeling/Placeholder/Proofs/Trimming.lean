import Mathlib
import Placeholder.Text.Blank

/-!
# White space around a text

What trimming removes and what it keeps. A text is trimmed when trimming gives it back; padding is a
text of white space alone.
-/

namespace Placeholder.Text

def Padding (cs : List Char) : Prop :=
  ∀ c ∈ cs, isBlank c = true

/-- A text without white space at either end. -/
def Trimmed (cs : List Char) : Prop :=
  trim cs = cs

def EndsVisible (cs : List Char) : Prop :=
  ∃ start d, cs = start ++ [d] ∧ isBlank d = false

/-- A text of one character or more, and no white space. -/
def Visible (cs : List Char) : Prop :=
  cs ≠ [] ∧ ∀ c ∈ cs, isBlank c = false

instance (cs : List Char) : Decidable (Padding cs) :=
  decidable_of_iff (cs.all isBlank = true) List.all_eq_true

instance (cs : List Char) : Decidable (Trimmed cs) :=
  inferInstanceAs (Decidable (trim cs = cs))

instance (cs : List Char) : Decidable (Visible cs) :=
  decidable_of_iff (cs ≠ [] ∧ cs.all (!isBlank ·) = true) (by simp [Visible])

theorem not_blank_of_isDigit {c : Char} (h : c.isDigit = true) : isBlank c = false := by
  by_contra hblank
  simp only [isBlank, Bool.not_eq_false, Bool.or_eq_true, Bool.and_eq_true, decide_eq_true_eq,
    beq_iff_eq] at hblank
  simp only [Char.isDigit, Bool.and_eq_true, decide_eq_true_eq, ge_iff_le,
    UInt32.le_iff_toNat_le] at h
  change 48 ≤ c.toNat ∧ c.toNat ≤ 57 at h
  omega

theorem padding_nil : Padding [] := by
  intro c hc
  cases hc

theorem padding_append {a b : List Char} : Padding (a ++ b) ↔ Padding a ∧ Padding b := by
  constructor
  · intro h
    exact ⟨fun c hc => h c (List.mem_append_left b hc),
      fun c hc => h c (List.mem_append_right a hc)⟩
  · intro h c hc
    rcases List.mem_append.mp hc with hc | hc
    · exact h.1 c hc
    · exact h.2 c hc

theorem trimStart_append_of_padding {p : Char → Bool} {a : List Char} (ha : ∀ c ∈ a, p c = true)
    (cs : List Char) : trimStart p (a ++ cs) = trimStart p cs :=
  List.dropWhile_append_of_pos ha

theorem trimStart_cons_of_not_blank {c : Char} (hc : isBlank c = false) (cs : List Char) :
    trimStart isBlank (c :: cs) = c :: cs := by
  simp only [trimStart, List.dropWhile_cons, hc, Bool.false_eq_true, if_false]

/-- Where a text is more than padding, trimming its start keeps what follows it. -/
theorem trimStart_append_of_not_padding {p : Char → Bool} {cs : List Char}
    (h : ¬ ∀ c ∈ cs, p c = true) (rest : List Char) :
    trimStart p (cs ++ rest) = trimStart p cs ++ rest := by
  have hne : (cs.dropWhile p).isEmpty = false := by
    rw [List.isEmpty_eq_false_iff]
    exact fun hnil => h (List.dropWhile_eq_nil_iff.mp hnil)
  simp only [trimStart, List.dropWhile_append, hne, Bool.false_eq_true, if_false]

/-- Trimming the start of a text stops at a character that is not blank at the latest. -/
theorem exists_trimStart_append_cons {c : Char} (hc : isBlank c = false) (cs rest : List Char) :
    ∃ front, trimStart isBlank (cs ++ c :: rest) = front ++ c :: rest := by
  by_cases hcs : Padding cs
  · refine ⟨[], ?_⟩
    rw [trimStart_append_of_padding hcs, trimStart_cons_of_not_blank hc, List.nil_append]
  · exact ⟨trimStart isBlank cs, trimStart_append_of_not_padding hcs (c :: rest)⟩

theorem trimStart_of_padding {p : Char → Bool} {cs : List Char} (h : ∀ c ∈ cs, p c = true) :
    trimStart p cs = [] :=
  List.dropWhile_eq_nil_iff.mpr h

theorem trimEnd_append_of_padding {p : Char → Bool} {a : List Char} (ha : ∀ c ∈ a, p c = true)
    (cs : List Char) : trimEnd p (cs ++ a) = trimEnd p cs := by
  simp only [trimEnd, List.reverse_append]
  congr 1
  exact List.dropWhile_append_of_pos fun c hc => ha c (List.mem_reverse.mp hc)

theorem trimEnd_concat_of_not_blank {c : Char} (hc : isBlank c = false) (cs : List Char) :
    trimEnd isBlank (cs ++ [c]) = cs ++ [c] := by
  simp [trimEnd, hc]

/-- A text splits into what trimming its start removes and what it leaves. -/
theorem exists_trimStart (p : Char → Bool) (cs : List Char) :
    ∃ a, (∀ c ∈ a, p c = true) ∧ cs = a ++ trimStart p cs :=
  ⟨cs.takeWhile p, fun _ hc => List.mem_takeWhile_imp hc, List.takeWhile_append_dropWhile.symm⟩

theorem exists_trimEnd (p : Char → Bool) (cs : List Char) :
    ∃ b, (∀ c ∈ b, p c = true) ∧ cs = trimEnd p cs ++ b := by
  obtain ⟨a, ha, hcs⟩ := exists_trimStart p cs.reverse
  refine ⟨a.reverse, fun c hc => ha c (List.mem_reverse.mp hc), ?_⟩
  have h := congrArg List.reverse hcs
  rwa [List.reverse_reverse, List.reverse_append] at h

theorem exists_trimBy (p : Char → Bool) (cs : List Char) :
    ∃ a b, (∀ c ∈ a, p c = true) ∧ (∀ c ∈ b, p c = true) ∧ cs = a ++ trimBy p cs ++ b := by
  obtain ⟨a, ha, hstart⟩ := exists_trimStart p cs
  obtain ⟨b, hb, hend⟩ := exists_trimEnd p (trimStart p cs)
  refine ⟨a, b, ha, hb, ?_⟩
  rw [List.append_assoc]
  exact hstart.trans (congrArg (a ++ ·) hend)

theorem exists_padding_trimStart (cs : List Char) :
    ∃ a, Padding a ∧ cs = a ++ trimStart isBlank cs :=
  exists_trimStart isBlank cs

theorem exists_padding_trim (cs : List Char) :
    ∃ a b, Padding a ∧ Padding b ∧ cs = a ++ trim cs ++ b :=
  exists_trimBy isBlank cs

theorem head_trimStart_not_blank {c : Char} {cs rest : List Char}
    (h : trimStart isBlank cs = c :: rest) : isBlank c = false := by
  have hne : cs.dropWhile isBlank ≠ [] := by
    rw [show cs.dropWhile isBlank = c :: rest from h]
    exact List.cons_ne_nil c rest
  have hhead := List.head_dropWhile_not isBlank hne
  simpa only [show cs.dropWhile isBlank = c :: rest from h, List.head_cons] using hhead

/-- What trimming removes makes no difference around a text. -/
theorem trimBy_padded {p : Char → Bool} {a b : List Char} (ha : ∀ c ∈ a, p c = true)
    (hb : ∀ c ∈ b, p c = true) (cs : List Char) : trimBy p (a ++ cs ++ b) = trimBy p cs := by
  unfold trimBy
  rw [List.append_assoc, trimStart_append_of_padding ha]
  by_cases hcs : ∀ c ∈ cs, p c = true
  · have hboth : ∀ c ∈ cs ++ b, p c = true := List.forall_mem_append.mpr ⟨hcs, hb⟩
    rw [trimStart_of_padding hboth, trimStart_of_padding hcs]
  · rw [trimStart_append_of_not_padding hcs, trimEnd_append_of_padding hb]

theorem trim_padded {a b : List Char} (ha : Padding a) (hb : Padding b) (cs : List Char) :
    trim (a ++ cs ++ b) = trim cs :=
  trimBy_padded ha hb cs

theorem EndsVisible.append_left {cs : List Char} (h : EndsVisible cs) (a : List Char) :
    EndsVisible (a ++ cs) := by
  obtain ⟨start, d, rfl, hd⟩ := h
  exact ⟨a ++ start, d, (List.append_assoc a start [d]).symm, hd⟩

theorem EndsVisible.trimEnd_eq {cs : List Char} (h : EndsVisible cs) :
    trimEnd isBlank cs = cs := by
  obtain ⟨start, d, rfl, hd⟩ := h
  exact trimEnd_concat_of_not_blank hd start

theorem EndsVisible.trimmed_cons {c : Char} {cs : List Char} (h : EndsVisible (c :: cs))
    (hc : isBlank c = false) : Trimmed (c :: cs) := by
  unfold Trimmed trim trimBy
  rw [trimStart_cons_of_not_blank hc, h.trimEnd_eq]

theorem visible_of_digits {cs : List Char} (hne : cs ≠ [])
    (hdigits : ∀ c ∈ cs, c.isDigit = true) : Visible cs :=
  ⟨hne, fun c hc => not_blank_of_isDigit (hdigits c hc)⟩

theorem Visible.endsVisible {cs : List Char} (h : Visible cs) : EndsVisible cs := by
  obtain ⟨hne, hblank⟩ := h
  obtain ⟨start, d, rfl⟩ := (List.eq_nil_or_concat' cs).resolve_left hne
  exact ⟨start, d, rfl, hblank d (List.mem_append_right start List.mem_cons_self)⟩

theorem Visible.trimmed {cs : List Char} (h : Visible cs) : Trimmed cs := by
  obtain ⟨c, rest, rfl⟩ := List.exists_cons_of_ne_nil h.1
  exact h.endsVisible.trimmed_cons (h.2 c List.mem_cons_self)

theorem Trimmed.trimStart_eq {cs : List Char} (h : Trimmed cs) : trimStart isBlank cs = cs := by
  obtain ⟨a, _, hstart⟩ := exists_padding_trimStart cs
  obtain ⟨b, _, hend⟩ := exists_trimEnd isBlank (trimStart isBlank cs)
  have hlen := congrArg List.length (show trimEnd isBlank (trimStart isBlank cs) = cs from h)
  have hstart' := congrArg List.length hstart
  have hend' := congrArg List.length hend
  simp only [List.length_append] at hstart' hend'
  have ha : a = [] := List.eq_nil_of_length_eq_zero (by omega)
  rw [ha] at hstart
  exact hstart.symm

theorem Trimmed.trimEnd_eq {cs : List Char} (h : Trimmed cs) : trimEnd isBlank cs = cs := by
  have htrim : trimEnd isBlank (trimStart isBlank cs) = cs := h
  rwa [h.trimStart_eq] at htrim

theorem Trimmed.head_not_blank {c : Char} {rest : List Char} (h : Trimmed (c :: rest)) :
    isBlank c = false :=
  head_trimStart_not_blank h.trimStart_eq

theorem Trimmed.last_not_blank {d : Char} {start : List Char} (h : Trimmed (start ++ [d])) :
    isBlank d = false := by
  have hrev : trimStart isBlank (start ++ [d]).reverse = (start ++ [d]).reverse := by
    have h' := congrArg List.reverse h.trimEnd_eq
    simpa only [trimEnd, trimStart, List.reverse_reverse] using h'
  rw [List.reverse_append] at hrev
  exact head_trimStart_not_blank hrev

theorem Trimmed.endsVisible {cs : List Char} (h : Trimmed cs) (hne : cs ≠ []) :
    EndsVisible cs := by
  obtain ⟨start, d, rfl⟩ := (List.eq_nil_or_concat' cs).resolve_left hne
  exact ⟨start, d, rfl, h.last_not_blank⟩

/-- White space is all that is left to trim where nothing else was trimmed before. -/
theorem trim_trimBy {p : Char → Bool} {cs : List Char}
    (h : ∀ c ∈ cs, p c = true → isBlank c = true) : trim (trimBy p cs) = trim cs := by
  obtain ⟨a, b, ha, hb, hcs⟩ := exists_trimBy p cs
  have hmem : ∀ c, c ∈ a ∨ c ∈ b → c ∈ cs := by
    intro c hc
    rw [hcs, List.mem_append, List.mem_append]
    exact hc.imp_left Or.inl
  have hfront : Padding a := fun c hc => h c (hmem c (Or.inl hc)) (ha c hc)
  have hback : Padding b := fun c hc => h c (hmem c (Or.inr hc)) (hb c hc)
  conv_rhs => rw [hcs]
  exact (trim_padded hfront hback (trimBy p cs)).symm

theorem trim_trim (cs : List Char) : trim (trim cs) = trim cs :=
  trim_trimBy fun _ _ hc => hc

theorem trimmed_trim (cs : List Char) : Trimmed (trim cs) :=
  trim_trim cs

theorem trim_eq_nil_iff {cs : List Char} : trim cs = [] ↔ Padding cs := by
  constructor
  · intro h
    obtain ⟨a, b, ha, hb, hcs⟩ := exists_padding_trim cs
    rw [hcs, h, List.append_nil]
    exact padding_append.mpr ⟨ha, hb⟩
  · intro h
    rw [trim, trimBy, trimStart_of_padding h]
    rfl

theorem mem_trim_iff {c : Char} (hc : isBlank c = false) {cs : List Char} :
    c ∈ trim cs ↔ c ∈ cs := by
  obtain ⟨a, b, ha, hb, hcs⟩ := exists_padding_trim cs
  have hnone : ∀ padding, Padding padding → c ∉ padding := by
    intro padding hpadding hmem
    rw [hpadding c hmem] at hc
    cases hc
  conv_rhs => rw [hcs]
  simp only [List.mem_append, hnone a ha, hnone b hb, false_or, or_false]

/-! ### Any class of characters around a text -/

theorem head?_trimStart {p : Char → Bool} {cs : List Char} {c : Char}
    (h : (trimStart p cs).head? = some c) : p c = false := by
  have hhead := List.head?_dropWhile_not p cs
  rw [show (cs.dropWhile p).head? = some c from h] at hhead
  exact hhead

theorem trimStart_append {p : Char → Bool} {front cs : List Char} (hfront : ∀ c ∈ front, p c = true)
    (hcs : ∀ c, cs.head? = some c → p c = false) : trimStart p (front ++ cs) = cs := by
  rw [trimStart, List.dropWhile_append_of_pos hfront]
  cases cs with
  | nil => rfl
  | cons c cs => simp only [List.dropWhile_cons, hcs c rfl, Bool.false_eq_true, if_false]

theorem getLast?_trimEnd {p : Char → Bool} {cs : List Char} {c : Char}
    (h : (trimEnd p cs).getLast? = some c) : p c = false := by
  rw [trimEnd, List.getLast?_reverse] at h
  exact head?_trimStart h

theorem trimEnd_append {p : Char → Bool} {back cs : List Char} (hback : ∀ c ∈ back, p c = true)
    (hcs : ∀ c, cs.getLast? = some c → p c = false) : trimEnd p (cs ++ back) = cs := by
  have hstart : trimStart p (back.reverse ++ cs.reverse) = cs.reverse :=
    trimStart_append (fun c hc => hback c (List.mem_reverse.mp hc)) fun c hc =>
      hcs c (by rwa [List.head?_reverse] at hc)
  rw [trimStart] at hstart
  rw [trimEnd, List.reverse_append, hstart, List.reverse_reverse]

theorem trimEnd_prefix (p : Char → Bool) (cs : List Char) : trimEnd p cs <+: cs := by
  rw [trimEnd, ← List.reverse_suffix, List.reverse_reverse]
  exact List.dropWhile_suffix p

theorem head?_trimBy {p : Char → Bool} {cs : List Char} {c : Char}
    (h : (trimBy p cs).head? = some c) : p c = false := by
  obtain ⟨tail, htail⟩ := trimEnd_prefix p (trimStart p cs)
  have hstart : (trimStart p cs).head? = some c := by
    rw [← htail, List.head?_append, show (trimEnd p (trimStart p cs)).head? = some c from h]
    rfl
  exact head?_trimStart hstart

/-- Trimming gives back exactly the texts that are enclosed by what is trimmed and have none of it
at their own ends. -/
theorem trimBy_enclosed_iff {p : Char → Bool} {front back cs : List Char} (hne : cs ≠ [])
    (hfront : ∀ c ∈ front, p c = true) (hback : ∀ c ∈ back, p c = true) :
    trimBy p (front ++ cs ++ back) = cs ↔
      ∀ c, cs.head? = some c ∨ cs.getLast? = some c → p c = false := by
  constructor
  · intro h c hc
    rw [← h] at hc
    exact hc.elim head?_trimBy getLast?_trimEnd
  · intro h
    have hhead : ∀ c, (cs ++ back).head? = some c → p c = false := fun c hc =>
      h c (Or.inl (by rwa [List.head?_append_of_ne_nil cs hne] at hc))
    rw [trimBy, List.append_assoc, trimStart_append hfront hhead,
      trimEnd_append hback fun c hc => h c (Or.inr hc)]

end Placeholder.Text
