import Mathlib
import Placeholder.Proofs.Trimming
import Placeholder.Template

/-!
# The pieces of a template

What a placeholder at the start of a text looks like, and the equations of the scanner: the fuel of
`scanFrom` never runs out, so that `scan` is determined by the placeholder in front or the lack of
one. The checks of the braces get one equation for each way a text can start.
-/

namespace Placeholder.Template

/-! ### Placeholders at the start of a text -/

def BraceFree (cs : List Char) : Prop :=
  ∀ c ∈ cs, c ≠ '\x7b' ∧ c ≠ '\x7d'

instance (cs : List Char) : Decidable (BraceFree cs) :=
  decidable_of_iff (cs.all (fun c => c != '\x7b' && c != '\x7d') = true) (by simp [BraceFree])

theorem braceFree_nil : BraceFree [] := by
  intro c hc
  cases hc

theorem braceFree_cons {c : Char} {cs : List Char} :
    BraceFree (c :: cs) ↔ (c ≠ '\x7b' ∧ c ≠ '\x7d') ∧ BraceFree cs :=
  List.forall_mem_cons

theorem braceFree_append {a b : List Char} : BraceFree (a ++ b) ↔ BraceFree a ∧ BraceFree b :=
  List.forall_mem_append

theorem BraceFree.not_mem_open {cs : List Char} (h : BraceFree cs) : '\x7b' ∉ cs :=
  fun hc => (h _ hc).1 rfl

theorem BraceFree.not_mem_close {cs : List Char} (h : BraceFree cs) : '\x7d' ∉ cs :=
  fun hc => (h _ hc).2 rfl

theorem braceFree_of_padding {cs : List Char} (h : Text.Padding cs) : BraceFree cs := by
  intro c hc
  have hblank := h c hc
  constructor
  · intro hopen
    rw [hopen] at hblank
    revert hblank
    decide
  · intro hclose
    rw [hclose] at hblank
    revert hblank
    decide

theorem takeContent?_close (rest : List Char) :
    takeContent? ('\x7d' :: '\x7d' :: rest) = some ([], rest) := rfl

theorem takeContent?_cons {c : Char} (hc : c ≠ '\x7b' ∧ c ≠ '\x7d') (cs : List Char) :
    takeContent? (c :: cs) =
      (takeContent? cs).map fun (content, rest) => (c :: content, rest) := by
  rw [takeContent?.eq_def]
  split
  · contradiction
  · rename_i heq
    exact absurd (List.cons.inj heq).1 hc.2
  · rename_i heq
    exact absurd (List.cons.inj heq).1 hc.1
  · rename_i heq
    obtain ⟨rfl, rfl⟩ := List.cons.inj heq
    rfl

/-- The content of a placeholder reaches up to the first braces, which must be closing ones. -/
theorem takeContent?_eq_some_iff (cs content rest : List Char) :
    takeContent? cs = some (content, rest) ↔
      BraceFree content ∧ cs = content ++ '\x7d' :: '\x7d' :: rest := by
  constructor
  · intro h
    induction cs generalizing content with
    | nil => simp [takeContent?] at h
    | cons c cs ih =>
      by_cases hopen : c = '\x7b'
      · subst hopen
        simp [takeContent?] at h
      by_cases hclose : c = '\x7d'
      · subst hclose
        cases cs with
        | nil => simp [takeContent?] at h
        | cons d cs =>
          by_cases hd : d = '\x7d'
          · subst hd
            rw [takeContent?_close] at h
            obtain ⟨rfl, rfl⟩ := Prod.mk.inj (Option.some.inj h)
            exact ⟨braceFree_nil, rfl⟩
          · simp [takeContent?, hd] at h
      · rw [takeContent?_cons ⟨hopen, hclose⟩, Option.map_eq_some_iff] at h
        obtain ⟨⟨tail, rest'⟩, htail, heq⟩ := h
        obtain ⟨rfl, rfl⟩ := Prod.mk.inj heq
        obtain ⟨hfree, rfl⟩ := ih tail htail
        exact ⟨braceFree_cons.mpr ⟨⟨hopen, hclose⟩, hfree⟩, rfl⟩
  · rintro ⟨hfree, rfl⟩
    induction content with
    | nil => exact takeContent?_close rest
    | cons c content ih =>
      obtain ⟨hc, hcontent⟩ := braceFree_cons.mp hfree
      rw [List.cons_append, takeContent?_cons hc, ih hcontent, Option.map_some]

theorem embrace_append (content rest : List Char) :
    embrace content ++ rest = '\x7b' :: '\x7b' :: (content ++ '\x7d' :: '\x7d' :: rest) := by
  simp [embrace]

/-- A placeholder at the start of a text has a content that is not empty and has no braces. -/
theorem takePlaceholder?_eq_some_iff (cs content rest : List Char) :
    takePlaceholder? cs = some (content, rest) ↔
      content ≠ [] ∧ BraceFree content ∧ cs = embrace content ++ rest := by
  rw [embrace_append]
  constructor
  · intro h
    unfold takePlaceholder? at h
    split at h
    · rename_i tail
      obtain ⟨hcontent, hne⟩ := Option.filter_eq_some_iff.mp h
      obtain ⟨hfree, rfl⟩ := (takeContent?_eq_some_iff tail content rest).mp hcontent
      exact ⟨by simpa using hne, hfree, rfl⟩
    · contradiction
  · rintro ⟨hne, hfree, rfl⟩
    have hcontent : takeContent? (content ++ '\x7d' :: '\x7d' :: rest) = some (content, rest) :=
      (takeContent?_eq_some_iff _ content rest).mpr ⟨hfree, rfl⟩
    rw [takePlaceholder?, hcontent]
    exact Option.filter_eq_some_iff.mpr ⟨rfl, by simpa using hne⟩

theorem takePlaceholder?_cons_of_ne {c : Char} (hc : c ≠ '\x7b') (cs : List Char) :
    takePlaceholder? (c :: cs) = none := by
  cases h : takePlaceholder? (c :: cs) with
  | none => rfl
  | some found =>
    obtain ⟨content, rest⟩ := found
    obtain ⟨_, _, heq⟩ := (takePlaceholder?_eq_some_iff (c :: cs) content rest).mp h
    rw [embrace_append] at heq
    exact absurd (List.cons.inj heq).1 hc

/-! ### Scanning -/

theorem length_embrace (content : List Char) : (embrace content).length = content.length + 4 := by
  simp [embrace]

/-- What follows a placeholder is shorter than the text, so the fuel of the scanner suffices. -/
theorem length_lt_of_takePlaceholder? {c : Char} {cs content rest : List Char}
    (h : takePlaceholder? (c :: cs) = some (content, rest)) : rest.length ≤ cs.length := by
  obtain ⟨_, _, heq⟩ := (takePlaceholder?_eq_some_iff (c :: cs) content rest).mp h
  have hlen := congrArg List.length heq
  rw [List.length_append, length_embrace, List.length_cons] at hlen
  omega

theorem scanFrom_eq_scan (fuel : Nat) (cs : List Char) (h : cs.length ≤ fuel) :
    scanFrom fuel cs = scan cs := by
  have key : ∀ n fuel cs, cs.length ≤ n → n ≤ fuel → scanFrom fuel cs = scanFrom n cs := by
    intro n
    induction n with
    | zero =>
      intro fuel cs hn _
      have hcs : cs = [] := List.eq_nil_of_length_eq_zero (by omega)
      subst hcs
      cases fuel <;> rfl
    | succ n ih =>
      intro fuel cs hn hle
      obtain ⟨fuel, rfl⟩ : ∃ k, fuel = k + 1 := ⟨fuel - 1, by omega⟩
      cases cs with
      | nil => rfl
      | cons c cs =>
        simp only [List.length_cons] at hn
        simp only [scanFrom]
        split
        · rename_i content rest htake
          have hrest := length_lt_of_takePlaceholder? htake
          rw [ih fuel rest (by omega) (by omega)]
        · rw [ih fuel cs (by omega) (by omega)]
  exact key cs.length fuel cs le_rfl h

theorem scan_cons_of_none {c : Char} {cs : List Char} (h : takePlaceholder? (c :: cs) = none) :
    scan (c :: cs) = .char c :: scan cs := by
  conv_lhs => rw [scan, List.length_cons, scanFrom, h]
  rfl

theorem scan_embrace {content : List Char} (hne : content ≠ []) (hfree : BraceFree content)
    (rest : List Char) :
    scan (embrace content ++ rest) = .placeholder content :: scan rest := by
  have htake := (takePlaceholder?_eq_some_iff _ content rest).mpr ⟨hne, hfree, rfl⟩
  rw [embrace_append] at htake ⊢
  conv_lhs => rw [scan, List.length_cons, scanFrom, htake]
  have hrest := length_lt_of_takePlaceholder? htake
  simp only [scanFrom_eq_scan _ rest hrest]

theorem scan_append_of_braceFree {cs : List Char} (h : BraceFree cs) (rest : List Char) :
    scan (cs ++ rest) = cs.map Piece.char ++ scan rest := by
  induction cs with
  | nil => rfl
  | cons c cs ih =>
    obtain ⟨hc, hcs⟩ := braceFree_cons.mp h
    rw [List.cons_append, scan_cons_of_none (takePlaceholder?_cons_of_ne hc.1 _), ih hcs]
    rfl

/-! ### Checking the braces -/

theorem countPairs_cons_of_ne {b c : Char} (hc : c ≠ b) (cs : List Char) :
    countPairs b (c :: cs) = countPairs b cs := by
  cases cs with
  | nil => rfl
  | cons d cs => simp [countPairs, hc]

theorem countPairs_pair (b : Char) (cs : List Char) :
    countPairs b (b :: b :: cs) = countPairs b cs + 1 := by
  simp [countPairs]

theorem countPairs_append_of_not_mem {b : Char} {cs : List Char} (h : b ∉ cs) (rest : List Char) :
    countPairs b (cs ++ rest) = countPairs b rest := by
  induction cs with
  | nil => rfl
  | cons c cs ih =>
    rw [List.mem_cons, not_or] at h
    rw [List.cons_append, countPairs_cons_of_ne (Ne.symm h.1), ih h.2]

theorem takeWhile_append_close {cs : List Char} (h : '\x7d' ∉ cs) (rest : List Char) :
    (cs ++ '\x7d' :: rest).takeWhile (· != '\x7d') = cs := by
  have hbefore : ∀ c ∈ cs, (c != '\x7d') = true := fun c hc =>
    bne_iff_ne.mpr fun heq => h (heq ▸ hc)
  rw [List.takeWhile_append_of_pos hbefore, List.takeWhile_cons_of_neg (by decide), List.append_nil]

theorem eq_of_append_close {cs ds : List Char} (hcs : '\x7d' ∉ cs) (hds : '\x7d' ∉ ds)
    {rest rest' : List Char} (h : cs ++ '\x7d' :: rest = ds ++ '\x7d' :: rest') : cs = ds := by
  rw [← takeWhile_append_close hcs rest, h, takeWhile_append_close hds]

/-- A condition that holds nowhere in a text is found nowhere. -/
def NeverFrom (holds : List Char → Bool) (cs : List Char) : Prop :=
  ∀ offset, findOffset? holds offset cs = none

theorem neverFrom_nil (holds : List Char → Bool) : NeverFrom holds [] := by
  intro offset
  rfl

theorem neverFrom_cons {holds : List Char → Bool} {c : Char} {cs : List Char}
    (h : holds (c :: cs) = false) (hcs : NeverFrom holds cs) : NeverFrom holds (c :: cs) := by
  intro offset
  simp only [findOffset?, h, Bool.false_eq_true, if_false]
  exact hcs _

end Placeholder.Template
