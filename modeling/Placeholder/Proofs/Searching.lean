import Mathlib
import Placeholder.Text.Pieces

/-!
# Searching in texts

The search for a sub-text as a statement about the list of characters: `startsWith` decides the
prefixes of a text and `occurs` its infixes.
-/

namespace Placeholder.Text

theorem after?_append (head rest : List Char) : after? head (head ++ rest) = some rest :=
  (after?_eq_some_iff head (head ++ rest) rest).mpr rfl

theorem before?_append (front tail : List Char) : before? tail (front ++ tail) = some front := by
  rw [before?, List.reverse_append, after?_append, Option.map_some, List.reverse_reverse]

theorem startsWith_iff (head cs : List Char) : startsWith head cs = true ↔ head <+: cs := by
  constructor
  · intro h
    obtain ⟨rest, hrest⟩ := Option.isSome_iff_exists.mp h
    exact ⟨rest, ((after?_eq_some_iff head cs rest).mp hrest).symm⟩
  · rintro ⟨rest, rfl⟩
    rw [startsWith, after?_append]
    rfl

theorem after?_eq_none_iff (head cs : List Char) : after? head cs = none ↔ ¬ head <+: cs := by
  rw [← startsWith_iff, startsWith]
  cases after? head cs <;> simp

theorem occurs_nil (sub : List Char) : occurs sub [] = sub.isEmpty := by
  unfold occurs cut?
  cases sub <;> rfl

theorem occurs_cons (sub : List Char) (c : Char) (cs : List Char) :
    occurs sub (c :: cs) = (startsWith sub (c :: cs) || occurs sub cs) := by
  unfold occurs startsWith
  rw [cut?]
  cases after? sub (c :: cs) with
  | some rest => rfl
  | none => simp

theorem occurs_iff (sub cs : List Char) : occurs sub cs = true ↔ sub <:+: cs := by
  induction cs with
  | nil => simp [occurs_nil]
  | cons c cs ih => rw [occurs_cons, Bool.or_eq_true, startsWith_iff, ih, List.infix_cons_iff]

/-- A text is cut at `sub` where `sub` stands and does not begin before. -/
theorem cut?_append {sub front : List Char} (hne : sub ≠ [])
    (h : ¬ sub <:+: front ++ sub.dropLast) (rest : List Char) :
    cut? sub (front ++ sub ++ rest) = some (front, rest) := by
  induction front with
  | nil =>
    obtain ⟨c, cs, rfl⟩ := List.exists_cons_of_ne_nil hne
    have hafter := after?_append (c :: cs) rest
    rw [List.cons_append] at hafter
    rw [List.nil_append, List.cons_append, cut?, hafter]
  | cons c front ih =>
    have hpass : after? sub (c :: (front ++ sub ++ rest)) = none := by
      rw [after?_eq_none_iff]
      intro hprefix
      -- The occurrence would end before the last character of `sub`.
      have hwhole : c :: front ++ sub.dropLast <+: c :: (front ++ sub ++ rest) := by
        obtain ⟨tail, htail⟩ := List.dropLast_prefix sub
        refine ⟨tail ++ rest, ?_⟩
        rw [List.append_assoc, ← List.append_assoc sub.dropLast, htail, List.cons_append,
          List.append_assoc]
      have hlength : sub.length ≤ (c :: front ++ sub.dropLast).length := by
        rw [List.length_append, List.length_cons, List.length_dropLast]
        omega
      exact h (List.prefix_of_prefix_length_le hprefix hwhole hlength).isInfix
    have hfront : ¬ sub <:+: front ++ sub.dropLast := fun hin => h (hin.trans
      (List.suffix_cons c (front ++ sub.dropLast)).isInfix)
    rw [List.cons_append, List.cons_append, cut?, hpass, ih hfront]
    rfl

theorem cut?_char {c : Char} {front : List Char} (h : c ∉ front) (rest : List Char) :
    cut? [c] (front ++ c :: rest) = some (front, rest) := by
  have hin : ¬ [c] <:+: front ++ [c].dropLast := by
    simpa [List.singleton_infix_iff] using h
  have hcut := cut?_append (List.cons_ne_nil c []) hin rest
  rwa [List.append_assoc, List.singleton_append] at hcut

theorem cut?_eq_none_iff (sub cs : List Char) : cut? sub cs = none ↔ ¬ sub <:+: cs := by
  rw [← occurs_iff, occurs]
  cases cut? sub cs <;> simp

theorem cut?_of_not_mem {c : Char} {cs : List Char} (h : c ∉ cs) : cut? [c] cs = none := by
  rwa [cut?_eq_none_iff, List.singleton_infix_iff]

/-! ### Across a character that a text does not have -/

theorem prefix_append_cons_iff {sub : List Char} {c : Char} (hc : c ∉ sub) (a b : List Char) :
    sub <+: a ++ c :: b ↔ sub <+: a := by
  refine ⟨fun h => ?_, fun h => h.trans (List.prefix_append a _)⟩
  rcases Nat.lt_or_ge a.length sub.length with hlt | hle
  · have hfront : a ++ [c] <+: a ++ c :: b := ⟨b, by simp⟩
    have hlength : (a ++ [c]).length ≤ sub.length := by
      rw [List.length_append, List.length_singleton]
      omega
    have hwithin := List.prefix_of_prefix_length_le hfront h hlength
    exact absurd (hwithin.subset (by simp)) hc
  · exact List.prefix_of_prefix_length_le h (List.prefix_append a _) hle

theorem infix_append_cons_iff {sub : List Char} {c : Char} (hc : c ∉ sub) (a b : List Char) :
    sub <:+: a ++ c :: b ↔ sub <:+: a ∨ sub <:+: b := by
  induction a with
  | nil =>
    have hfront := prefix_append_cons_iff hc [] b
    rw [List.nil_append] at hfront ⊢
    rw [List.infix_cons_iff, hfront, List.prefix_nil, List.infix_nil]
  | cons x a ih =>
    have hfront := prefix_append_cons_iff hc (x :: a) b
    rw [List.cons_append] at hfront
    rw [List.cons_append, List.infix_cons_iff, hfront, ih, List.infix_cons_iff, or_assoc]

/-- What has no character of a text around it does not help this text to occur. -/
theorem infix_surrounded_iff {sub front back : List Char} (hne : sub ≠ [])
    (hfront : ∀ c ∈ front, c ∉ sub) (hback : ∀ c ∈ back, c ∉ sub) (cs : List Char) :
    sub <:+: front ++ cs ++ back ↔ sub <:+: cs := by
  induction front with
  | nil =>
    cases back with
    | nil => rw [List.nil_append, List.append_nil]
    | cons c back =>
      have hrest : ¬ sub <:+: back := fun h =>
        have hmem := List.head_mem hne
        hback _ (List.mem_cons_of_mem c (h.subset hmem)) hmem
      rw [List.nil_append, infix_append_cons_iff (hback c List.mem_cons_self), or_iff_left hrest]
  | cons c front ih =>
    obtain ⟨hc, hrest⟩ := List.forall_mem_cons.mp hfront
    have hcons := infix_append_cons_iff hc [] (front ++ cs ++ back)
    rw [List.nil_append, List.infix_nil, or_iff_right hne] at hcons
    rw [List.cons_append, List.cons_append, hcons, ih hrest]

/-! ### Pieces between separators -/

theorem splitBy_ne_nil (p : Char → Bool) (cs : List Char) : splitBy p cs ≠ [] := by
  cases cs with
  | nil => exact List.cons_ne_nil _ _
  | cons c cs =>
    rw [splitBy]
    split
    · exact List.cons_ne_nil _ _
    · split <;> exact List.cons_ne_nil _ _

theorem splitBy_of_forall {p : Char → Bool} {cs : List Char} (h : ∀ c ∈ cs, p c = false) :
    splitBy p cs = [cs] := by
  induction cs with
  | nil => rfl
  | cons c cs ih =>
    obtain ⟨hc, hcs⟩ := List.forall_mem_cons.mp h
    rw [splitBy, if_neg (by simp [hc]), ih hcs]

theorem mem_of_mem_splitBy {p : Char → Bool} {cs piece : List Char} (h : piece ∈ splitBy p cs)
    {c : Char} (hc : c ∈ piece) : c ∈ cs ∧ p c = false := by
  induction cs generalizing piece c with
  | nil =>
    rw [splitBy, List.mem_singleton] at h
    rw [h] at hc
    cases hc
  | cons b cs ih =>
    have hlater : ∀ {piece}, piece ∈ splitBy p cs → c ∈ piece → c ∈ b :: cs ∧ p c = false :=
      fun h hc => ⟨List.mem_cons_of_mem b (ih h hc).1, (ih h hc).2⟩
    rw [splitBy] at h
    split at h
    · rcases List.mem_cons.mp h with rfl | h
      · cases hc
      · exact hlater h hc
    · rename_i hb
      have hhere : c = b → c ∈ b :: cs ∧ p c = false := by
        rintro rfl
        exact ⟨List.mem_cons_self, Bool.not_eq_true _ ▸ hb⟩
      split at h
      · rw [List.mem_singleton.mp h, List.mem_singleton] at hc
        exact hhere hc
      · rename_i first pieces hsplit
        rcases List.mem_cons.mp h with rfl | h
        · exact (List.mem_cons.mp hc).elim hhere (hlater (hsplit ▸ List.mem_cons_self))
        · exact hlater (hsplit ▸ List.mem_cons_of_mem first h) hc

/-- A character that separates cuts the pieces of a text in two. -/
theorem splitBy_append_cons {p : Char → Bool} {sep : Char} (hsep : p sep = true)
    (front rest : List Char) :
    splitBy p (front ++ sep :: rest) = splitBy p front ++ splitBy p rest := by
  induction front with
  | nil => simp [splitBy, hsep]
  | cons c front ih =>
    obtain ⟨piece, pieces, hfront⟩ := List.exists_cons_of_ne_nil (splitBy_ne_nil p front)
    rw [List.cons_append, splitBy, splitBy, ih, hfront]
    cases p c <;> rfl

theorem splitOn_cons_self (sep : Char) (cs : List Char) :
    splitOn sep (sep :: cs) = [] :: splitOn sep cs := by
  simp [splitOn, splitBy]

theorem splitOn_cons_of_ne {sep c : Char} (hc : c ≠ sep) {cs piece : List Char}
    {pieces : List (List Char)} (h : splitOn sep cs = piece :: pieces) :
    splitOn sep (c :: cs) = (c :: piece) :: pieces := by
  unfold splitOn at h ⊢
  rw [splitBy, h]
  simp [hc]

theorem exists_splitOn (sep : Char) (cs : List Char) :
    ∃ piece pieces, splitOn sep cs = piece :: pieces := by
  induction cs with
  | nil => exact ⟨[], [], rfl⟩
  | cons c cs ih =>
    obtain ⟨piece, pieces, h⟩ := ih
    by_cases hc : c = sep
    · subst hc
      exact ⟨[], _, splitOn_cons_self c cs⟩
    · exact ⟨c :: piece, pieces, splitOn_cons_of_ne hc h⟩

theorem splitOn_of_not_mem {sep : Char} {cs : List Char} (h : sep ∉ cs) :
    splitOn sep cs = [cs] := by
  apply splitBy_of_forall
  intro c hc
  rw [beq_eq_false_iff_ne]
  rintro rfl
  exact h hc

theorem splitOn_append_cons (sep : Char) (front rest : List Char) :
    splitOn sep (front ++ sep :: rest) = splitOn sep front ++ splitOn sep rest :=
  splitBy_append_cons (by simp) front rest

theorem splitOn_append {sep : Char} {a : List Char} (h : sep ∉ a) (rest : List Char) :
    splitOn sep (a ++ sep :: rest) = a :: splitOn sep rest := by
  rw [splitOn_append_cons, splitOn_of_not_mem h, List.singleton_append]

/-- With a separator in front, each piece of a joined text has one before it. -/
theorem cons_intercalate (sep : Char) {pieces : List (List Char)} (h : pieces ≠ []) :
    sep :: [sep].intercalate pieces = pieces.flatMap (sep :: ·) := by
  obtain ⟨piece, pieces, rfl⟩ := List.exists_cons_of_ne_nil h
  induction pieces generalizing piece with
  | nil => simp [List.intercalate]
  | cons next pieces ih =>
    have hnext := ih next (List.cons_ne_nil next pieces)
    rw [List.flatMap_cons, ← hnext]
    simp [List.intercalate]

theorem splitOn_intercalate {sep : Char} {pieces : List (List Char)} (hne : pieces ≠ [])
    (h : ∀ piece ∈ pieces, sep ∉ piece) : splitOn sep ([sep].intercalate pieces) = pieces := by
  obtain ⟨piece, pieces, rfl⟩ := List.exists_cons_of_ne_nil hne
  induction pieces generalizing piece with
  | nil =>
    obtain ⟨hpiece, -⟩ := List.forall_mem_cons.mp h
    have htext : [sep].intercalate [piece] = piece := by simp [List.intercalate]
    rw [htext, splitOn_of_not_mem hpiece]
  | cons next pieces ih =>
    obtain ⟨hpiece, hpieces⟩ := List.forall_mem_cons.mp h
    have htext : [sep].intercalate (piece :: next :: pieces) =
        piece ++ sep :: [sep].intercalate (next :: pieces) := by
      simp [List.intercalate]
    rw [htext, splitOn_append hpiece, ih next (List.cons_ne_nil next pieces) hpieces]

theorem splitOn_eq_cons {sep : Char} {cs piece : List Char} {pieces : List (List Char)}
    (h : splitOn sep cs = piece :: pieces) :
    sep ∉ piece ∧ (cs = piece ∧ pieces = [] ∨
      ∃ rest, cs = piece ++ sep :: rest ∧ splitOn sep rest = pieces) := by
  induction cs generalizing piece pieces with
  | nil =>
    cases h
    exact ⟨List.not_mem_nil, Or.inl ⟨rfl, rfl⟩⟩
  | cons c cs ih =>
    by_cases hc : c = sep
    · subst hc
      rw [splitOn_cons_self] at h
      cases h
      exact ⟨List.not_mem_nil, Or.inr ⟨cs, rfl, rfl⟩⟩
    · obtain ⟨first, others, hsplit⟩ := exists_splitOn sep cs
      rw [splitOn_cons_of_ne hc hsplit] at h
      cases h
      obtain ⟨hfirst, hcases⟩ := ih hsplit
      refine ⟨fun hmem => ?_, ?_⟩
      · rcases List.mem_cons.mp hmem with heq | hmem
        · exact hc heq.symm
        · exact hfirst hmem
      · rcases hcases with ⟨rfl, rfl⟩ | ⟨rest, rfl, hrest⟩
        · exact Or.inl ⟨rfl, rfl⟩
        · exact Or.inr ⟨rest, rfl, hrest⟩

end Placeholder.Text
