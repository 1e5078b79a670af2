import Placeholder.Formatter.Texts
import Placeholder.Proofs.SnakeCase

/-!
# Words of a slug

A slug is the words of the text with the separator between them, as long as every dollar sign in the
separator stands for itself. A dollar sign that refers to something makes the filling shorter than
the separator, so it is put between no two words, and it is not trimmed at the ends either. The
default separator is a hyphen, with which a slug is its own slug.
-/

namespace Placeholder

namespace Text

/-! ### Separators with references -/

/-- What stands behind a dollar sign that does not stand for itself: another one, a name, or a name
in braces. -/
def refers : List Char → Bool
  | '$' :: _ => true
  | '\x7b' :: cs => cs.contains '\x7d'
  | c :: _ => isNamePart c
  | [] => false

/-- A separator in which every dollar sign stands for itself. -/
def isLiteral : List Char → Bool
  | [] => true
  | c :: cs => !(c == '$' && refers cs) && isLiteral cs

variable {cs gap sep : List Char}

theorem readNat?_of_not_alnum {name : List Char} (h : ∀ c ∈ name, c.isAlphanum = false)
    (bound : Nat) : readNat? bound name = none := by
  have hdigits : ∀ digits ⊆ name, readDigits? digits = none := by
    intro digits hsub
    cases digits with
    | nil => rfl
    | cons c digits =>
      have hc := h c (hsub List.mem_cons_self)
      simp only [Char.isAlphanum, Bool.or_eq_false_iff] at hc
      simp [readDigits?, hc.2]
  unfold readNat?
  split
  · simp [hdigits _ (List.subset_cons_self _ _)]
  · simp [hdigits _ (List.Subset.refl _)]

/-- A reference is taken where there is one, and it is a part of what it stands in. -/
theorem takeReference?_cases (hdollar : cs.head? ≠ some '$') :
    refers cs = false ∧ takeReference? cs = none ∨
      ∃ name rest, refers cs = true ∧ takeReference? cs = some (name, rest) ∧ name ⊆ cs ∧
        rest <:+ cs ∧ rest.length < cs.length := by
  cases cs with
  | nil => exact Or.inl ⟨rfl, rfl⟩
  | cons c cs =>
    have hc : c ≠ '$' := fun heq => hdollar (congrArg some heq)
    by_cases hbrace : c = '\x7b'
    · subst hbrace
      by_cases hclosed : '\x7d' ∈ cs
      · obtain ⟨name, rest, rfl, hname⟩ := List.eq_append_cons_of_mem hclosed
        have hcut : takeReference? ('\x7b' :: (name ++ '\x7d' :: rest)) = some (name, rest) :=
          cut?_char hname rest
        refine Or.inr ⟨name, rest, by simp [refers], hcut, ?_, ?_, by simp; omega⟩
        · exact fun d hd => List.mem_cons_of_mem _ (List.mem_append_left _ hd)
        · exact ⟨'\x7b' :: (name ++ ['\x7d']), by simp⟩
      · exact Or.inl ⟨by simp [refers, hclosed], cut?_of_not_mem hclosed⟩
    · cases hname : isNamePart c with
      | false => exact Or.inl ⟨by simp [refers, hname], by simp [takeReference?, hbrace, hname]⟩
      | true =>
        have hrest := List.dropWhile_suffix isNamePart (l := cs)
        refine Or.inr ⟨c :: cs.takeWhile isNamePart, cs.dropWhile isNamePart,
          by simp [refers, hname], by simp [takeReference?, hbrace, hname], ?_,
          hrest.trans (List.suffix_cons c cs), ?_⟩
        · exact List.cons_subset_cons c (List.takeWhile_prefix isNamePart).subset
        · rw [List.length_cons]
          exact Nat.lt_succ_of_le hrest.length_le

theorem expandFrom_of_not_referred (hdollar : cs.head? ≠ some '$')
    (htake : takeReference? cs = none) (gap : List Char) (fuel : Nat) :
    expandFrom gap (fuel + 1) ('$' :: cs) = '$' :: expandFrom gap fuel cs := by
  rewrite [expandFrom]
  · rw [htake]
  · rintro rest rfl
    exact hdollar rfl

theorem expandFrom_of_referred {name rest : List Char} (hdollar : cs.head? ≠ some '$')
    (htake : takeReference? cs = some (name, rest)) (gap : List Char) (fuel : Nat) :
    expandFrom gap (fuel + 1) ('$' :: cs) =
      (if readNat? UInt64.size name = some 0 then gap else []) ++ expandFrom gap fuel rest := by
  rewrite [expandFrom]
  · rw [htake]
  · rintro rest rfl
    exact hdollar rfl

/-- One step through a separator without letters and digits: a character that stands for itself is
kept, and a reference is left out, unless it is a dollar sign. -/
theorem expandFrom_step {c : Char} (hplain : ∀ d ∈ c :: cs, d.isAlphanum = false) (fuel : Nat) :
    (c == '$' && refers cs) = false ∧
        (∀ gap, expandFrom gap (fuel + 1) (c :: cs) = c :: expandFrom gap fuel cs) ∨
      (c == '$' && refers cs) = true ∧ ∃ kept rest, kept ⊆ c :: cs ∧ rest <:+ cs ∧
        kept.length + rest.length ≤ cs.length ∧
        ∀ gap, expandFrom gap (fuel + 1) (c :: cs) = kept ++ expandFrom gap fuel rest := by
  by_cases hc : c = '$'
  · subst hc
    by_cases hdollar : cs.head? = some '$'
    · obtain ⟨rest, rfl⟩ := List.head?_eq_some_iff.mp hdollar
      exact Or.inr ⟨rfl, ['$'], rest, by simp, List.suffix_cons '$' rest,
        by simp [Nat.add_comm], fun gap => rfl⟩
    · rcases takeReference?_cases hdollar with ⟨hrefers, htake⟩ |
        ⟨name, rest, hrefers, htake, hname, hrest, hshort⟩
      · exact Or.inl ⟨by simp [hrefers], fun gap =>
          expandFrom_of_not_referred hdollar htake gap fuel⟩
      · have hnumber : readNat? UInt64.size name = none := readNat?_of_not_alnum
          (fun d hd => hplain d (List.mem_cons_of_mem _ (hname hd))) _
        refine Or.inr ⟨by simp [hrefers], [], rest, List.nil_subset _, hrest, ?_, fun gap => ?_⟩
        · rw [List.length_nil, Nat.zero_add]
          exact hshort.le
        · rw [expandFrom_of_referred hdollar htake, hnumber, if_neg (by simp)]
  · exact Or.inl ⟨by simp [hc], fun gap => by simp [expandFrom]⟩

theorem expandFrom_gap (hplain : ∀ d ∈ cs, d.isAlphanum = false) (gap : List Char) (fuel : Nat) :
    expandFrom gap fuel cs = expandFrom [] fuel cs := by
  induction fuel generalizing cs with
  | zero => rfl
  | succ fuel ih =>
    cases cs with
    | nil => rfl
    | cons c cs =>
      have hrest : ∀ rest, rest <:+ cs → ∀ d ∈ rest, d.isAlphanum = false :=
        fun rest hsuffix d hd => hplain d (List.mem_cons_of_mem c (hsuffix.subset hd))
      rcases expandFrom_step hplain fuel with ⟨-, hstep⟩ | ⟨-, kept, rest, -, hsuffix, -, hstep⟩
      · rw [hstep, hstep, ih (hrest cs List.suffix_rfl)]
      · rw [hstep, hstep, ih (hrest rest hsuffix)]

theorem expandFrom_of_isLiteral (hplain : ∀ d ∈ cs, d.isAlphanum = false)
    (hliteral : isLiteral cs = true) (fuel : Nat) : expandFrom [] fuel cs = cs := by
  induction fuel generalizing cs with
  | zero => rfl
  | succ fuel ih =>
    cases cs with
    | nil => rfl
    | cons c cs =>
      rw [isLiteral, Bool.and_eq_true, Bool.not_eq_true'] at hliteral
      rcases expandFrom_step hplain fuel with ⟨-, hstep⟩ | ⟨hrefers, -⟩
      · rw [hstep, ih (List.forall_mem_cons.mp hplain).2 hliteral.2]
      · rw [hliteral.1] at hrefers
        contradiction

theorem expandFrom_subset (hplain : ∀ d ∈ cs, d.isAlphanum = false) (fuel : Nat) :
    expandFrom [] fuel cs ⊆ cs ∧ (expandFrom [] fuel cs).length ≤ cs.length := by
  induction fuel generalizing cs with
  | zero => exact ⟨List.Subset.refl _, Nat.le_refl _⟩
  | succ fuel ih =>
    cases cs with
    | nil => exact ⟨List.Subset.refl _, Nat.le_refl _⟩
    | cons c cs =>
      have hothers := (List.forall_mem_cons.mp hplain).2
      rcases expandFrom_step hplain fuel with
        ⟨-, hstep⟩ | ⟨-, kept, rest, hkept, hsuffix, hshort, hstep⟩
      · obtain ⟨hsub, hlength⟩ := ih hothers
        rw [hstep]
        exact ⟨List.cons_subset_cons c hsub, Nat.succ_le_succ hlength⟩
      · obtain ⟨hsub, hlength⟩ := ih fun d hd => hothers d (hsuffix.subset hd)
        rw [hstep]
        refine ⟨List.append_subset.mpr ⟨hkept, fun d hd => ?_⟩, ?_⟩
        · exact List.mem_cons_of_mem c (hsuffix.subset (hsub hd))
        · rw [List.length_append, List.length_cons]
          omega

/-- A reference makes what the separator expands to shorter. -/
theorem length_expandFrom_lt (hplain : ∀ d ∈ cs, d.isAlphanum = false)
    (hliteral : isLiteral cs = false) {fuel : Nat} (hfuel : cs.length ≤ fuel) :
    (expandFrom [] fuel cs).length < cs.length := by
  induction fuel generalizing cs with
  | zero =>
    rw [List.eq_nil_of_length_eq_zero (Nat.le_zero.mp hfuel)] at hliteral
    cases hliteral
  | succ fuel ih =>
    cases cs with
    | nil => cases hliteral
    | cons c cs =>
      have hothers := (List.forall_mem_cons.mp hplain).2
      rcases expandFrom_step hplain fuel with
        ⟨hplainly, hstep⟩ | ⟨-, kept, rest, -, hsuffix, hshort, hstep⟩
      · rw [isLiteral, hplainly, Bool.not_false, Bool.true_and] at hliteral
        rw [hstep]
        exact Nat.succ_lt_succ (ih hothers hliteral (Nat.le_of_succ_le_succ hfuel))
      · have hrest : ∀ d ∈ rest, d.isAlphanum = false := fun d hd => hothers d (hsuffix.subset hd)
        have hlength := (expandFrom_subset hrest fuel).2
        rw [hstep, List.length_append, List.length_cons]
        omega

/-- A gap does not show in what a separator without letters and digits expands to. -/
theorem expand_eq (hplain : ∀ d ∈ sep, d.isAlphanum = false) :
    expand sep = fun _ => expand sep [] := by
  funext gap
  exact expandFrom_gap hplain gap sep.length

/-! ### Trimming copies of the separator -/

theorem dropCopies_of_not_prefix {head : List Char} (h : ¬ head <+: cs) (fuel : Nat) :
    dropCopies head fuel cs = cs := by
  cases fuel with
  | zero => rfl
  | succ fuel => rw [dropCopies, (after?_eq_none_iff head cs).mpr h]

theorem dropCopies_append {head front : List Char} (hne : head ≠ [])
    (hfront : front = [] ∨ front = head) (h : ¬ head <+: cs) :
    dropCopies head (front ++ cs).length (front ++ cs) = cs := by
  rcases hfront with rfl | rfl
  · exact dropCopies_of_not_prefix h _
  · obtain ⟨c, rest, rfl⟩ := List.exists_cons_of_ne_nil hne
    rw [List.cons_append, List.length_cons, dropCopies, ← List.cons_append, after?_append]
    exact dropCopies_of_not_prefix h _

/-- One copy at either end is trimmed, where none begins or ends what is between. -/
theorem trimCopies_enclosed {front back : List Char} (hne : sep ≠ [])
    (hfront : front = [] ∨ front = sep) (hback : back = [] ∨ back = sep)
    (hstart : ¬ sep <+: cs ++ back) (hend : ¬ sep.reverse <+: cs.reverse) :
    trimCopies sep (front ++ cs ++ back) = cs := by
  have hdrop := dropCopies_append hne hfront hstart
  have hreversed : back.reverse = [] ∨ back.reverse = sep.reverse :=
    hback.imp List.reverse_eq_nil_iff.mpr (congrArg List.reverse)
  have hundrop := dropCopies_append (by simpa using hne) hreversed hend
  have hlength : (cs ++ back).length = (back.reverse ++ cs.reverse).length := by
    rw [← List.reverse_append, List.length_reverse]
  rw [List.append_assoc, trimCopies, hdrop, List.reverse_append, hlength, hundrop,
    List.reverse_reverse]

/-! ### The words with the separator between them -/

/-- The words of a text for a slug: the longest runs of small letters and digits when the text is
spelled in ASCII as far as it goes, and in small letters. -/
def slugWords (cs : List Char) : List (List Char) :=
  runs isSlugChar (lower (transliterate cs))

/-- The text with its gaps filled. -/
def slugFilled (e cs : List Char) : List Char :=
  fillRuns (fun c => !isSlugChar c) (fun _ => e) (lower (transliterate cs))

theorem slug_eq_trimCopies (hne : sep ≠ []) (hplain : ∀ d ∈ sep, d.isAlphanum = false)
    (cs : List Char) : slug sep cs = trimCopies sep (slugFilled (expand sep []) cs) := by
  have hempty : sep.isEmpty = false := by simpa using hne
  rw [slug, expand_eq hplain, hempty]
  rfl

theorem isGap_of_not_alnum (hne : sep ≠ []) (hplain : ∀ d ∈ sep, d.isAlphanum = false) :
    IsGap isSlugChar sep := by
  refine ⟨hne, fun c hc => ?_⟩
  by_contra hslug
  have halnum : c.isAlphanum = true := isAsciiAlnum_of_isSlugChar (by simpa using hslug)
  rw [hplain c hc] at halnum
  contradiction

theorem slug_of_isLiteral (hne : sep ≠ []) (hplain : ∀ d ∈ sep, d.isAlphanum = false)
    (hliteral : isLiteral sep = true) (cs : List Char) :
    slug sep cs = sep.intercalate (slugWords cs) := by
  obtain ⟨front, back, hfront, hback, hnone, hfill⟩ :=
    fillRuns_eq_intercalate isSlugChar sep (lower (transliterate cs))
  have hexpand : expand sep [] = sep := expandFrom_of_isLiteral hplain hliteral _
  have hgap := isGap_of_not_alnum hne hplain
  rw [slug_eq_trimCopies hne hplain, hexpand, slugFilled, hfill, slugWords]
  cases hwords : runs isSlugChar (lower (transliterate cs)) with
  | nil =>
    rw [hnone hwords]
    exact trimCopies_enclosed hne hfront (Or.inl rfl) (by simpa using hne) (by simpa using hne)
  | cons w ws =>
    have hruns : ∀ v ∈ w :: ws, IsRun isSlugChar v := fun v hv =>
      isRun_of_mem_runs (hwords ▸ hv)
    obtain ⟨⟨c, after, hc, hstart⟩, before, d, hd, hend⟩ := exists_edges (e := sep) hruns
    refine trimCopies_enclosed hne hfront hback ?_ ?_
    · have hprefix := prefix_append_cons_iff (hgap.not_mem hc) [] (after ++ back)
      rw [hstart, List.cons_append, ← List.nil_append (c :: _), hprefix]
      simpa using hne
    · have hmem : d ∉ sep.reverse := by simpa using hgap.not_mem hd
      have hprefix := prefix_append_cons_iff hmem [] before.reverse
      rw [hend, List.reverse_append, List.reverse_singleton, List.singleton_append,
        ← List.nil_append (d :: _), hprefix]
      simpa using hne

/-- What a reference leaves of the separator is too short to be trimmed. -/
theorem slug_of_not_isLiteral (hne : sep ≠ []) (hplain : ∀ d ∈ sep, d.isAlphanum = false)
    (hliteral : isLiteral sep = false) (cs : List Char) :
    slug sep cs = slugFilled (expand sep []) cs := by
  obtain ⟨front, back, hfront, hback, hnone, hfill⟩ :=
    fillRuns_eq_intercalate isSlugChar (expand sep []) (lower (transliterate cs))
  have hshort : (expand sep []).length < sep.length :=
    length_expandFrom_lt hplain hliteral (Nat.le_refl _)
  have hgap := isGap_of_not_alnum hne hplain
  have hside : ∀ {side : List Char}, side = [] ∨ side = expand sep [] →
      side.length < sep.length := by
    rintro side (rfl | rfl)
    · exact List.length_pos_of_ne_nil hne
    · exact hshort
  have hpassed : ∀ {sub side : List Char}, sub.length = sep.length → side.length < sep.length →
      ¬ sub <+: side := fun hsub hside hprefix => by
    have hle := hprefix.length_le
    omega
  have huntrimmed : ¬ sep <+: slugFilled (expand sep []) cs ∧
      ¬ sep.reverse <+: (slugFilled (expand sep []) cs).reverse := by
    rw [slugFilled, hfill]
    cases hwords : runs isSlugChar (lower (transliterate cs)) with
    | nil =>
      rw [hnone hwords, List.intercalate_nil, List.append_nil, List.append_nil]
      exact ⟨hpassed rfl (hside hfront), hpassed List.length_reverse (by simpa using hside hfront)⟩
    | cons w ws =>
      have hruns : ∀ v ∈ w :: ws, IsRun isSlugChar v := fun v hv =>
        isRun_of_mem_runs (hwords ▸ hv)
      obtain ⟨⟨c, after, hc, hstart⟩, before, d, hd, hend⟩ :=
        exists_edges (e := expand sep []) hruns
      constructor
      · rw [hstart, List.append_assoc, List.cons_append, prefix_append_cons_iff (hgap.not_mem hc)]
        exact hpassed rfl (hside hfront)
      · rw [hend, List.reverse_append, List.reverse_append, List.reverse_append,
          List.reverse_singleton, List.singleton_append, List.cons_append,
          prefix_append_cons_iff (by simpa using hgap.not_mem hd)]
        exact hpassed List.length_reverse (by simpa using hside hback)
  have htrim := trimCopies_enclosed hne (Or.inl rfl) (Or.inl rfl)
    (by rw [List.append_nil]; exact huntrimmed.1) huntrimmed.2
  rw [List.nil_append, List.append_nil] at htrim
  rw [slug_eq_trimCopies hne hplain, htrim]

/-- Something shorter than the separator stands between no two words as the separator does. -/
theorem filled_ne_intercalate {e front back w v : List Char} {ws : List (List Char)}
    (hsep : IsGap isSlugChar sep) (he : ∀ c ∈ e, isSlugChar c = false)
    (hshort : e.length < sep.length) (hfront : front = [] ∨ front = e)
    (hruns : ∀ u ∈ w :: v :: ws, IsRun isSlugChar u) :
    front ++ e.intercalate (w :: v :: ws) ++ back ≠ sep.intercalate (w :: v :: ws) := by
  intro heq
  obtain ⟨hw, hothers⟩ := List.forall_mem_cons.mp hruns
  have hnil : front = [] := by
    rcases hfront with hnil | rfl
    · exact hnil
    · obtain ⟨⟨c, after, hc, hstart⟩, -⟩ := exists_edges (e := sep) hruns
      cases front with
      | nil => rfl
      | cons d front =>
        rw [hstart, List.cons_append, List.cons_append, List.cons.injEq] at heq
        have hd := he d List.mem_cons_self
        rw [heq.1, hc] at hd
        contradiction
  obtain ⟨⟨c, after, hc, hstart⟩, -⟩ := exists_edges (e := e) hothers
  rw [hnil, List.nil_append, List.intercalate_cons_cons, List.intercalate_cons_cons, hstart,
    List.append_assoc, List.append_assoc, List.append_assoc, List.append_cancel_left_eq] at heq
  -- The separator goes on where the next word begins.
  have hprefix : e <+: sep := List.prefix_of_prefix_length_le ⟨_, heq⟩ ⟨_, rfl⟩ hshort.le
  obtain ⟨rest, rfl⟩ := hprefix
  cases rest with
  | nil => simp at hshort
  | cons d rest =>
    rw [List.append_assoc, List.append_cancel_left_eq, List.cons_append, List.cons_append,
      List.cons.injEq] at heq
    have hd := hsep.2 d (by simp)
    rw [← heq.1, hc] at hd
    contradiction

theorem intercalate_of_length_le_one (e : List Char) {ws : List (List Char)}
    (h : ws.length ≤ 1) : e.intercalate ws = ws.flatten := by
  match ws, h with
  | [], _ => rfl
  | [w], _ => simp

theorem flatten_runs {p : Char → Bool} (h : ∀ c ∈ cs, p c = true) : (runs p cs).flatten = cs := by
  by_cases hne : cs = []
  · rw [hne]
    rfl
  · rw [runs_of_run ⟨hne, h⟩, List.flatten_singleton]

/-- The words are joined by the separator exactly when it is literal, but for texts with nothing to
join: those of at most one word, if they have no gap or nothing is left of the separator. -/
theorem slug_eq_intercalate_iff (hne : sep ≠ []) (hplain : ∀ d ∈ sep, d.isAlphanum = false)
    (cs : List Char) :
    slug sep cs = sep.intercalate (slugWords cs) ↔
      isLiteral sep = true ∨ (slugWords cs).length ≤ 1 ∧
        (expand sep [] = [] ∨ ∀ c ∈ lower (transliterate cs), isSlugChar c = true) := by
  cases hliteral : isLiteral sep with
  | true => exact iff_of_true (slug_of_isLiteral hne hplain hliteral cs) (Or.inl rfl)
  | false =>
    rw [slug_of_not_isLiteral hne hplain hliteral, or_iff_right Bool.false_ne_true]
    have hsep := isGap_of_not_alnum hne hplain
    have hpart : ∀ c ∈ expand sep [], isSlugChar c = false := fun c hc =>
      hsep.2 c ((expandFrom_subset hplain sep.length).1 hc)
    obtain ⟨front, back, hfront, hback, -, hfill⟩ :=
      fillRuns_eq_intercalate isSlugChar (expand sep []) (lower (transliterate cs))
    constructor
    · intro heq
      have hfew : (slugWords cs).length ≤ 1 := by
        have hshort : (expand sep []).length < sep.length :=
          length_expandFrom_lt hplain hliteral (Nat.le_refl _)
        have hruns : ∀ u ∈ slugWords cs, IsRun isSlugChar u := fun u hu => isRun_of_mem_runs hu
        rw [slugFilled, hfill, ← slugWords] at heq
        match hwords : slugWords cs with
        | [] => exact Nat.zero_le 1
        | [w] => exact Nat.le_refl 1
        | w :: v :: ws =>
          rw [hwords] at heq hruns
          exact absurd heq (filled_ne_intercalate hsep hpart hshort hfront hruns)
      refine ⟨hfew, or_iff_not_imp_left.mpr fun hleft => ?_⟩
      refine forall_of_forall_fillRuns ⟨hleft, hpart⟩ fun c hc => ?_
      have hmem : c ∈ (slugWords cs).flatten := by
        rw [← intercalate_of_length_le_one sep hfew, ← heq]
        exact hc
      obtain ⟨w, hw, hcw⟩ := List.mem_flatten.mp hmem
      exact (isRun_of_mem_runs hw).2 c hcw
    · rintro ⟨hfew, hnil | hall⟩
      · rw [hnil, or_self] at hfront hback
        rw [intercalate_of_length_le_one sep hfew, slugFilled, hfill, hfront, hback, hnil,
          List.nil_append, List.append_nil]
        exact intercalate_of_length_le_one [] hfew
      · have hfilled := fillRuns_run_append (e := expand sep []) hall []
        rw [List.append_nil] at hfilled
        rw [intercalate_of_length_le_one sep hfew, slugWords, flatten_runs hall]
        exact hfilled.trans (List.append_nil _)

/-! ### Slugs of slugs -/

theorem plainLetter_of_ascii {c : Char} (h : c.toNat < 0x80) : plainLetter c = [c] := by
  unfold plainLetter
  split
  all_goals try exact absurd h (by decide)
  rfl

theorem transliterate_of_ascii {cs : List Char} (h : ∀ c ∈ cs, c.toNat < 0x80) :
    transliterate cs = cs := by
  induction cs with
  | nil => rfl
  | cons c cs ih =>
    obtain ⟨hc, hcs⟩ := List.forall_mem_cons.mp h
    have hrest := ih hcs
    unfold transliterate at hrest ⊢
    rw [List.flatMap_cons, plainLetter_of_ascii hc, hrest, List.singleton_append]

theorem lower_of_not_isUpper {cs : List Char}
    (h : ∀ c ∈ cs, c.toNat < 0x80 ∧ c.isUpper = false) : lower cs = cs := by
  suffices hall : ∀ inWord, lowerFrom inWord cs = cs from hall false
  induction cs with
  | nil => exact fun _ => rfl
  | cons c cs ih =>
    intro inWord
    obtain ⟨⟨hc, hupper⟩, hcs⟩ := List.forall_mem_cons.mp h
    have hsigma : c ≠ 'Σ' := by
      rintro rfl
      exact absurd hc (by decide)
    rw [lowerFrom, if_neg hsigma, lowerChar, if_pos hc,
      Char.toLower_eq_of_not_isUpper (by simp [hupper]), ih hcs, List.singleton_append]

theorem ascii_of_isSlugChar {c : Char} (h : isSlugChar c = true) : c.toNat < 0x80 := by
  simp only [isSlugChar, Char.isLower, Char.isDigit, Bool.or_eq_true, Bool.and_eq_true,
    decide_eq_true_eq, ge_iff_le, UInt32.le_iff_toNat_le] at h
  change 97 ≤ c.toNat ∧ c.toNat ≤ 122 ∨ 48 ≤ c.toNat ∧ c.toNat ≤ 57 at h
  omega

/-- Words of small letters and digits with hyphens between them are spelled as they are. -/
theorem slugWords_intercalate {ws : List (List Char)} (hws : ∀ w ∈ ws, IsRun isSlugChar w) :
    slugWords (['-'].intercalate ws) = ws := by
  have hhyphen : IsGap isSlugChar ['-'] := by simp [IsGap, isSlugChar]
  have hchars : ∀ c ∈ ['-'].intercalate ws, c.toNat < 0x80 ∧ c.isUpper = false := by
    intro c hc
    rcases mem_intercalate hc with hmark | ⟨w, hw, hmem⟩
    · rw [List.mem_singleton.mp hmark]
      exact ⟨by decide, by decide⟩
    · have hslug := (hws w hw).2 c hmem
      exact ⟨ascii_of_isSlugChar hslug, not_isUpper_of_isSlugChar hslug⟩
  rw [slugWords, transliterate_of_ascii fun c hc => (hchars c hc).1, lower_of_not_isUpper hchars,
    runs_intercalate hhyphen hws]

end Text

theorem Value.plainText_string (s : String) : (Value.string s).plainText = s := rfl

namespace Formatter

/-- The slug of a value is the words of its text with the separator between them. -/
def SlugJoins (args : List Value) (v : Value) : Prop :=
  slug.format v args = .ok (.string (Text.join (textArgument args 0 "-")
    ((Text.slugWords v.plainText.toList).map String.ofList)))

theorem toList_join (separator : String) (ws : List (List Char)) :
    (Text.join separator (ws.map String.ofList)).toList = separator.toList.intercalate ws := by
  have htexts : (ws.map String.ofList).map String.toList = ws := by
    simp [List.map_map, Function.comp_def]
  rw [Text.join, String.toList_intercalate, htexts]

theorem slugJoins_iff_slug_eq (args : List Value) (v : Value) :
    SlugJoins args v ↔ Text.slug (textArgument args 0 "-").toList v.plainText.toList =
      (textArgument args 0 "-").toList.intercalate (Text.slugWords v.plainText.toList) := by
  have hformat : slug.format v args = .ok (.string (String.ofList
      (Text.slug (textArgument args 0 "-").toList v.plainText.toList))) := rfl
  rw [SlugJoins, hformat, Except.ok.injEq, Value.string.injEq, ← String.toList_inj,
    String.toList_ofList, toList_join]

/-- For a separator without letters and digits a slug is the words of the text with exactly this
separator between them, if every dollar sign in it stands for itself; if one does not, then only
where there is nothing to join. With a hyphen the slug of a slug is the slug itself. -/
theorem slugJoins_iff {args : List Value} (hne : textArgument args 0 "-" ≠ "")
    (hplain : ∀ c ∈ (textArgument args 0 "-").toList, c.isAlphanum = false) (v : Value) :
    (SlugJoins args v ↔ Text.isLiteral (textArgument args 0 "-").toList = true ∨
        (Text.slugWords v.plainText.toList).length ≤ 1 ∧
          (Text.expand (textArgument args 0 "-").toList [] = [] ∨
            ∀ c ∈ Text.lower (Text.transliterate v.plainText.toList), Text.isSlugChar c = true)) ∧
      (textArgument args 0 "-" = "-" →
        ∃ s, slug.format v args = .ok (.string s) ∧
          slug.format (.string s) args = .ok (.string s)) := by
  have hseparator : (textArgument args 0 "-").toList ≠ [] := by simpa using hne
  refine ⟨?_, fun hhyphen => ?_⟩
  · rw [slugJoins_iff_slug_eq]
    exact Text.slug_eq_intercalate_iff hseparator hplain _
  · have hjoins : ∀ v, SlugJoins args v := fun v =>
      (slugJoins_iff_slug_eq args v).mpr (Text.slug_of_isLiteral hseparator hplain
        (by rw [hhyphen]; decide) _)
    have hwords : Text.slugWords (Text.join "-"
        ((Text.slugWords v.plainText.toList).map String.ofList)).toList =
          Text.slugWords v.plainText.toList := by
      rw [toList_join]
      exact Text.slugWords_intercalate fun w hw => Text.isRun_of_mem_runs hw
    have hfirst := hjoins v
    have hsecond := hjoins (.string (Text.join "-"
      ((Text.slugWords v.plainText.toList).map String.ofList)))
    rw [SlugJoins, hhyphen] at hfirst hsecond
    rw [Value.plainText_string, hwords] at hsecond
    exact ⟨_, hfirst, hsecond⟩

theorem slugJoins_tomJerry :
    textArgument [.string " & "] 0 "-" ≠ "" ∧
      (∀ c ∈ (textArgument [.string " & "] 0 "-").toList, c.isAlphanum = false) ∧
      Text.isLiteral (textArgument [.string " & "] 0 "-").toList = true ∧
      slug.format (.string "Tom, Jérry!") [.string " & "] = .ok (.string "tom & jerry") := by
  have htext : textArgument [.string " & "] 0 "-" = " & " := rfl
  have hplain : ∀ c ∈ (textArgument [.string " & "] 0 "-").toList, c.isAlphanum = false := by
    rw [htext]
    simp
  have hliteral : Text.isLiteral (textArgument [.string " & "] 0 "-").toList = true := by
    rw [htext]
    decide
  have hwords : Text.slugWords "Tom, Jérry!".toList = ["tom".toList, "jerry".toList] := by decide
  have hjoins := (slugJoins_iff (by rw [htext]; decide) hplain (.string "Tom, Jérry!")).1.mpr
    (Or.inl hliteral)
  rw [SlugJoins, htext, Value.plainText_string, hwords] at hjoins
  exact ⟨by rw [htext]; decide, hplain, hliteral, hjoins⟩

/-- Of two dollar signs only one is put between the words. -/
theorem not_slugJoins_dollars :
    textArgument [.string "$$"] 0 "-" ≠ "" ∧
      (∀ c ∈ (textArgument [.string "$$"] 0 "-").toList, c.isAlphanum = false) ∧
      slug.format (.string "a b") [.string "$$"] = .ok (.string "a$b") ∧
      ¬ SlugJoins [.string "$$"] (.string "a b") := by
  have htext : textArgument [.string "$$"] 0 "-" = "$$" := rfl
  have hplain : ∀ c ∈ (textArgument [.string "$$"] 0 "-").toList, c.isAlphanum = false := by
    rw [htext]
    simp
  have hslug : Text.slug "$$".toList "a b".toList = "a$b".toList := by decide
  have hwords : Text.slugWords "a b".toList = ["a".toList, "b".toList] := by decide
  refine ⟨by rw [htext]; decide, hplain, ?_, ?_⟩
  · exact congrArg (fun cs => Except.ok (Value.string (String.ofList cs))) hslug
  · rw [slugJoins_iff_slug_eq, htext, Value.plainText_string, hslug,
      hwords]
    decide

end Formatter

end Placeholder
