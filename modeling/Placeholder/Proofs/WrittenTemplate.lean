import Mathlib
import Placeholder.Proofs.TemplatePieces

/-!
# Templates as they are written

A template is written as a sequence of parts: text without braces, and contents in double braces
with white space around them. Such a template passes the check of the braces, it is scanned into
exactly its parts, and its tokens are the contents, classified, in their order.
-/

namespace Placeholder

/-- The text of a token is the placeholder's without the white space around it. -/
theorem Token.raw_classify (cs : List Char) :
    (Token.classify cs).raw = String.ofList (Text.trim cs) := by
  unfold Token.classify Token.classifyTrimmed
  split
  · rfl
  · split_ifs
    · rfl
    · unfold Token.ofCall
      split <;> rfl
    · rfl
    · rfl
    · rfl

namespace Template

inductive Part where
  | literal (text : List Char)
  | placeholder (before content after : List Char)
  deriving DecidableEq, Repr

namespace Part

def text : Part → List Char
  | literal text => text
  | placeholder before content after => embrace (before ++ content ++ after)

/-- A literal has no braces; a content has none either, and it is trimmed and not empty. -/
def WellFormed : Part → Prop
  | literal text => BraceFree text
  | placeholder before content after =>
    Text.Padding before ∧ Text.Padding after ∧
      content ≠ [] ∧ Text.Trimmed content ∧ BraceFree content

instance (part : Part) : Decidable part.WellFormed :=
  match part with
  | literal text => inferInstanceAs (Decidable (BraceFree text))
  | placeholder before content after =>
    inferInstanceAs (Decidable (Text.Padding before ∧ Text.Padding after ∧
      content ≠ [] ∧ Text.Trimmed content ∧ BraceFree content))

def content? : Part → Option (List Char)
  | literal _ => none
  | placeholder _ content _ => some content

def pieces : Part → List Piece
  | literal text => text.map .char
  | placeholder before content after => [.placeholder (before ++ content ++ after)]

end Part

def written (parts : List Part) : List Char :=
  parts.flatMap Part.text

/-- The contents of a template in the order of their appearance. -/
def writtenContents (parts : List Part) : List (List Char) :=
  parts.filterMap Part.content?

def WellWritten (parts : List Part) : Prop :=
  ∀ part ∈ parts, part.WellFormed

instance (parts : List Part) : Decidable (WellWritten parts) :=
  decidable_of_iff (parts.all (fun part => part.WellFormed) = true) (by simp [WellWritten])

theorem wellWritten_cons {part : Part} {parts : List Part} :
    WellWritten (part :: parts) ↔ part.WellFormed ∧ WellWritten parts :=
  List.forall_mem_cons

theorem written_cons (part : Part) (parts : List Part) :
    written (part :: parts) = part.text ++ written parts :=
  List.flatMap_cons

theorem Part.WellFormed.braceFree_padded {before content after : List Char}
    (h : (placeholder before content after).WellFormed) :
    BraceFree (before ++ content ++ after) := by
  obtain ⟨hbefore, hafter, _, _, hfree⟩ := h
  exact braceFree_append.mpr
    ⟨braceFree_append.mpr ⟨braceFree_of_padding hbefore, hfree⟩, braceFree_of_padding hafter⟩

theorem Part.WellFormed.padded_ne_nil {before content after : List Char}
    (h : (placeholder before content after).WellFormed) : before ++ content ++ after ≠ [] := by
  obtain ⟨_, _, hne, _, _⟩ := h
  simp [hne]

theorem Part.WellFormed.trim_padded {before content after : List Char}
    (h : (placeholder before content after).WellFormed) :
    Text.trim (before ++ content ++ after) = content := by
  obtain ⟨hbefore, hafter, _, htrimmed, _⟩ := h
  rw [Text.trim_padded hbefore hafter, htrimmed]

/-! ### Scanning -/

theorem scan_written (parts : List Part) (h : WellWritten parts) :
    scan (written parts) = parts.flatMap Part.pieces := by
  induction parts with
  | nil => rfl
  | cons part parts ih =>
    obtain ⟨hpart, hparts⟩ := wellWritten_cons.mp h
    rw [written_cons, List.flatMap_cons, ← ih hparts]
    cases part with
    | literal text => exact scan_append_of_braceFree hpart _
    | placeholder before content after =>
      exact scan_embrace hpart.padded_ne_nil hpart.braceFree_padded _

theorem contents_written (parts : List Part) (h : WellWritten parts) :
    (contents (written parts)).map Text.trim = writtenContents parts := by
  unfold contents writtenContents
  rw [scan_written parts h]
  induction parts with
  | nil => rfl
  | cons part parts ih =>
    obtain ⟨hpart, hparts⟩ := wellWritten_cons.mp h
    rw [List.flatMap_cons, List.filterMap_append, List.map_append, ih hparts]
    cases part with
    | literal text =>
      rw [List.filterMap_cons_none (show (Part.literal text).content? = none from rfl)]
      simp [Part.pieces, List.filterMap_map]
    | placeholder before content after =>
      rw [List.filterMap_cons_some
        (show (Part.placeholder before content after).content? = some content from rfl)]
      simp only [Part.pieces, List.filterMap_cons, List.filterMap_nil, List.map_cons, List.map_nil,
        hpart.trim_padded, List.singleton_append]

/-! ### The check of the braces -/

theorem countPairs_open_embrace {content : List Char} (h : BraceFree content) (rest : List Char) :
    countPairs '\x7b' (embrace content ++ rest) = countPairs '\x7b' rest + 1 := by
  have hmem : '\x7b' ∉ content := h.not_mem_open
  rw [embrace_append, countPairs_pair, countPairs_append_of_not_mem hmem,
    countPairs_cons_of_ne (by decide), countPairs_cons_of_ne (by decide)]

theorem countPairs_close_embrace {content : List Char} (h : BraceFree content) (rest : List Char) :
    countPairs '\x7d' (embrace content ++ rest) = countPairs '\x7d' rest + 1 := by
  have hmem : '\x7d' ∉ content := h.not_mem_close
  rw [embrace_append, countPairs_cons_of_ne (by decide), countPairs_cons_of_ne (by decide),
    countPairs_append_of_not_mem hmem, countPairs_pair]

theorem countPairs_written (parts : List Part) (h : WellWritten parts) :
    countPairs '\x7b' (written parts) = countPairs '\x7d' (written parts) := by
  induction parts with
  | nil => rfl
  | cons part parts ih =>
    obtain ⟨hpart, hparts⟩ := wellWritten_cons.mp h
    rw [written_cons]
    cases part with
    | literal text =>
      have hopen : '\x7b' ∉ text := BraceFree.not_mem_open hpart
      have hclose : '\x7d' ∉ text := BraceFree.not_mem_close hpart
      rw [Part.text, countPairs_append_of_not_mem hopen, countPairs_append_of_not_mem hclose,
        ih hparts]
    | placeholder before content after =>
      rw [Part.text, countPairs_open_embrace hpart.braceFree_padded,
        countPairs_close_embrace hpart.braceFree_padded, ih hparts]

/-- A condition on what follows double braces is met only behind double braces. -/
def NeedsBraces (holds : List Char → Bool) : Prop :=
  ∀ c cs, holds (c :: cs) = true → c = '\x7b' ∧ ∃ rest, cs = '\x7b' :: rest

theorem needsBraces_opensBlank : NeedsBraces opensBlank := by
  intro c cs h
  unfold opensBlank at h
  split at h
  · rename_i heq
    obtain ⟨rfl, rfl⟩ := List.cons.inj heq
    exact ⟨rfl, _, rfl⟩
  · contradiction

theorem needsBraces_opensNested : NeedsBraces opensNested := by
  intro c cs h
  unfold opensNested at h
  split at h
  · rename_i heq
    obtain ⟨rfl, rfl⟩ := List.cons.inj heq
    exact ⟨rfl, _, rfl⟩
  · contradiction

theorem NeedsBraces.neverFrom_append {holds : List Char → Bool} (hneeds : NeedsBraces holds)
    {cs rest : List Char} (h : '\x7b' ∉ cs) (hrest : NeverFrom holds rest) :
    NeverFrom holds (cs ++ rest) := by
  induction cs with
  | nil => exact hrest
  | cons c cs ih =>
    rw [List.mem_cons, not_or] at h
    refine neverFrom_cons ?_ (ih h.2)
    rw [Bool.eq_false_iff]
    intro hholds
    exact h.1 (hneeds c _ hholds).1.symm

/-- Past the first of two opening braces no other condition than the one on them is met. -/
theorem NeedsBraces.neverFrom_embrace {holds : List Char → Bool} (hneeds : NeedsBraces holds)
    {content rest : List Char} (hfree : BraceFree content)
    (hfirst : holds (embrace content ++ rest) = false) (hrest : NeverFrom holds rest) :
    NeverFrom holds (embrace content ++ rest) := by
  have hmem : '\x7b' ∉ content ++ ['\x7d', '\x7d'] := by
    rw [List.mem_append, not_or]
    exact ⟨hfree.not_mem_open, by decide⟩
  have htail := hneeds.neverFrom_append hmem hrest
  rw [List.append_assoc] at htail
  rw [embrace_append] at hfirst ⊢
  refine neverFrom_cons hfirst (neverFrom_cons ?_ htail)
  rw [Bool.eq_false_iff]
  intro hholds
  obtain ⟨_, tail, heq⟩ := hneeds _ _ hholds
  cases content with
  | nil => exact absurd (List.cons.inj heq).1 (by decide)
  | cons c content => exact (hfree c List.mem_cons_self).1 (List.cons.inj heq).1

theorem opensBlank_embrace {before content after : List Char}
    (h : (Part.placeholder before content after).WellFormed) (rest : List Char) :
    opensBlank (embrace (before ++ content ++ after) ++ rest) = false := by
  obtain ⟨hbefore, _, hne, htrimmed, hfree⟩ := h
  obtain ⟨c, tail, rfl⟩ := List.exists_cons_of_ne_nil hne
  have hclose : ¬ '\x7d' = c := fun hc => (hfree c List.mem_cons_self).2 hc.symm
  rw [embrace_append, opensBlank, List.append_assoc, List.append_assoc,
    Text.trimStart_append_of_padding hbefore, List.cons_append,
    Text.trimStart_cons_of_not_blank htrimmed.head_not_blank]
  simp only [Text.startsWith, Text.after?, hclose, if_false, Option.isSome_none]

theorem opensNested_embrace {content : List Char} (hfree : BraceFree content)
    (rest : List Char) : opensNested (embrace content ++ rest) = false := by
  have hopen : '\x7b' ∉ content := hfree.not_mem_open
  have htake := takeWhile_append_close hfree.not_mem_close ('\x7d' :: rest)
  have hcount : countPairs '\x7b' content = 0 := by
    simpa [countPairs] using countPairs_append_of_not_mem hopen []
  rw [embrace_append, opensNested, htake, hcount]
  rfl

/-- A condition that no placeholder meets at its start is met nowhere in a written template. -/
theorem NeedsBraces.neverFrom_written {holds : List Char → Bool} (hneeds : NeedsBraces holds)
    (hfirst : ∀ before content after, (Part.placeholder before content after).WellFormed →
      ∀ rest, holds (embrace (before ++ content ++ after) ++ rest) = false)
    (parts : List Part) (h : WellWritten parts) : NeverFrom holds (written parts) := by
  induction parts with
  | nil => exact neverFrom_nil _
  | cons part parts ih =>
    obtain ⟨hpart, hparts⟩ := wellWritten_cons.mp h
    rw [written_cons]
    cases part with
    | literal text => exact hneeds.neverFrom_append (BraceFree.not_mem_open hpart) (ih hparts)
    | placeholder before content after =>
      exact hneeds.neverFrom_embrace hpart.braceFree_padded (hfirst _ _ _ hpart _) (ih hparts)

theorem check_written (parts : List Part) (h : WellWritten parts) :
    check (String.ofList (written parts)) = .ok () := by
  have hcount := countPairs_written parts h
  have hblank := needsBraces_opensBlank.neverFrom_written
    (fun _ _ _ hpart rest => opensBlank_embrace hpart rest) parts h 0
  have hnested := needsBraces_opensNested.neverFrom_written
    (fun _ _ _ hpart rest => opensNested_embrace hpart.braceFree_padded rest) parts h 0
  simp only [check, String.toList_ofList, hcount, ne_eq, not_true_eq_false, if_false, hblank,
    hnested]

theorem parse_written (parts : List Part) (h : WellWritten parts) :
    parse (String.ofList (written parts)) = .ok ((writtenContents parts).map Token.classify) := by
  have hne : ∀ content ∈ writtenContents parts, (!content.isEmpty) = true := by
    intro content hcontent
    obtain ⟨part, hpart, heq⟩ := List.mem_filterMap.mp hcontent
    cases part with
    | literal text => contradiction
    | placeholder before content' after =>
      obtain ⟨_, _, hne, _, _⟩ := h _ hpart
      cases heq
      simpa using hne
  rw [parse, check_written parts h, String.toList_ofList, contents_written parts h,
    List.filter_eq_self.mpr hne]
  rfl

end Template

end Placeholder
