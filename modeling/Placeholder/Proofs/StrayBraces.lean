import Mathlib
import Placeholder.Proofs.DeclaredPlaceholders

/-!
# Double braces outside placeholders

The placeholders of a template and the texts between them make up the template again. A template is
checked by counting: double braces outside the placeholders may stay in a template that is accepted,
but then as many open as close, and there are none exactly when every `{{` is closed by `}}` before
any other brace. Substitution leaves them where they are.
-/

namespace Placeholder.Template

/-! ### The texts between the placeholders -/

def literalsOf : List Piece → List (List Char)
  | [] => [[]]
  | .placeholder _ :: pieces => [] :: literalsOf pieces
  | .char c :: pieces => (literalsOf pieces).modifyHead (c :: ·)

/-- The texts before, between and behind the placeholders, one more than there are of those. -/
def literals (cs : List Char) : List (List Char) :=
  literalsOf (scan cs)

/-- The literals with a filler behind each but the last. -/
def weave : List (List Char) → List (List Char) → List Char
  | [], _ => []
  | literal :: literals, [] => literal ++ weave literals []
  | literal :: literals, filler :: fillers => literal ++ filler ++ weave literals fillers

/-- A text is scanned one character or one placeholder at a time. -/
theorem scan_induction {P : List Char → Prop} (nil : P [])
    (char : ∀ c cs, takePlaceholder? (c :: cs) = none → P cs → P (c :: cs))
    (placeholder : ∀ content rest, content ≠ [] → BraceFree content → P rest →
      P (embrace content ++ rest)) (cs : List Char) : P cs := by
  induction hn : cs.length using Nat.strong_induction_on generalizing cs with
  | _ n ih =>
    cases cs with
    | nil => exact nil
    | cons c cs =>
      rw [List.length_cons] at hn
      cases htake : takePlaceholder? (c :: cs) with
      | none => exact char c cs htake (ih cs.length (by omega) cs rfl)
      | some found =>
        obtain ⟨content, rest⟩ := found
        have hlen := length_lt_of_takePlaceholder? htake
        obtain ⟨hne, hfree, hcs⟩ := (takePlaceholder?_eq_some_iff _ _ _).mp htake
        rw [hcs]
        exact placeholder content rest hne hfree (ih rest.length (by omega) rest rfl)

theorem literals_cons_of_none {c : Char} {cs : List Char}
    (h : takePlaceholder? (c :: cs) = none) :
    literals (c :: cs) = (literals cs).modifyHead (c :: ·) := by
  rw [literals, scan_cons_of_none h]
  rfl

theorem literals_embrace {content : List Char} (hne : content ≠ []) (hfree : BraceFree content)
    (rest : List Char) : literals (embrace content ++ rest) = [] :: literals rest := by
  rw [literals, scan_embrace hne hfree]
  rfl

theorem exists_literals (cs : List Char) : ∃ literal others, literals cs = literal :: others := by
  induction cs using scan_induction with
  | nil => exact ⟨[], [], rfl⟩
  | char c cs hnone ih =>
    obtain ⟨literal, others, hliterals⟩ := ih
    exact ⟨c :: literal, others, by rw [literals_cons_of_none hnone, hliterals]; rfl⟩
  | placeholder content rest hne hfree _ =>
    exact ⟨[], literals rest, literals_embrace hne hfree rest⟩

theorem weave_modifyHead (c : Char) {literals : List (List Char)} (hne : literals ≠ [])
    (fillers : List (List Char)) :
    weave (literals.modifyHead (c :: ·)) fillers = c :: weave literals fillers := by
  obtain ⟨literal, others, rfl⟩ := List.exists_cons_of_ne_nil hne
  cases fillers <;> rfl

/-- What a placeholder is replaced by; one without a text stays as written. -/
def replaced (replacement : String → Option String) (content : List Char) : List Char :=
  substitutePiece replacement (.placeholder content)

/-- Substitution puts texts in the place of the placeholders and leaves the literals alone. -/
theorem toList_substitute (template : String) (replacement : String → Option String) :
    (substitute template replacement).toList =
      weave (literals template.toList) ((contents template.toList).map (replaced replacement)) := by
  rw [substitute, String.toList_ofList]
  induction template.toList using scan_induction with
  | nil => rfl
  | char c cs hnone ih =>
    obtain ⟨literal, others, hliterals⟩ := exists_literals cs
    rw [literals_cons_of_none hnone, contents_cons_of_none hnone, scan_cons_of_none hnone,
      weave_modifyHead c (by rw [hliterals]; exact List.cons_ne_nil _ _), List.flatMap_cons, ih]
    rfl
  | placeholder content rest hne hfree ih =>
    rw [literals_embrace hne hfree, contents_embrace hne hfree, scan_embrace hne hfree,
      List.flatMap_cons, ih]
    rfl

theorem weave_literals (cs : List Char) :
    weave (literals cs) ((contents cs).map embrace) = cs := by
  induction cs using scan_induction with
  | nil => rfl
  | char c cs hnone ih =>
    obtain ⟨literal, others, hliterals⟩ := exists_literals cs
    rw [literals_cons_of_none hnone, contents_cons_of_none hnone,
      weave_modifyHead c (by rw [hliterals]; exact List.cons_ne_nil _ _), ih]
  | placeholder content rest hne hfree ih =>
    rw [literals_embrace hne hfree, contents_embrace hne hfree, List.map_cons, weave, ih,
      List.nil_append]

/-! ### Counting double braces -/

/-- Where no pair can begin in front of `rest`, pairs are counted apart. -/
theorem countPairs_append_of {b : Char} {rest : List Char}
    (hrest : ∀ c, countPairs b (c :: rest) = countPairs b rest) (cs : List Char) :
    countPairs b (cs ++ rest) = countPairs b cs + countPairs b rest := by
  fun_induction countPairs b cs with
  | case1 c d cs hpair ih =>
    obtain ⟨rfl, rfl⟩ := hpair
    rw [List.cons_append, List.cons_append, countPairs_pair, ih]
    omega
  | case2 c d cs hpair ih =>
    rw [List.cons_append, List.cons_append, countPairs, if_neg hpair, ← List.cons_append, ih]
  | case3 cs hshort =>
    rcases cs with _ | ⟨c, _ | ⟨d, cs⟩⟩
    · rw [List.nil_append, Nat.zero_add]
    · rw [List.singleton_append, hrest, Nat.zero_add]
    · exact absurd rfl (hshort c d cs)

theorem countPairs_cons_of_head?_ne {b : Char} {rest : List Char} (hrest : rest.head? ≠ some b)
    (c : Char) : countPairs b (c :: rest) = countPairs b rest := by
  cases rest with
  | nil => rfl
  | cons d rest =>
    have hd : ¬ (c = b ∧ d = b) := fun hpair => hrest (congrArg some hpair.2)
    rw [countPairs, if_neg hd]

theorem countPairs_append {b : Char} (cs : List Char) {rest : List Char}
    (hrest : rest.head? ≠ some b) :
    countPairs b (cs ++ rest) = countPairs b cs + countPairs b rest :=
  countPairs_append_of (countPairs_cons_of_head?_ne hrest) cs

theorem countPairs_append_pair {b : Char} (cs : List Char) {rest : List Char}
    (hrest : rest.head? ≠ some b) :
    countPairs b (cs ++ b :: b :: rest) = countPairs b cs + 1 + countPairs b rest := by
  have hpair : ∀ c, countPairs b (c :: b :: b :: rest) = countPairs b (b :: b :: rest) := by
    intro c
    by_cases hc : c = b
    · rw [hc, countPairs_pair, countPairs_pair, countPairs_cons_of_head?_ne hrest]
    · rw [countPairs_cons_of_ne hc]
  rw [countPairs_append_of hpair, countPairs_pair]
  omega

theorem head?_append_ne {content : List Char} (hne : content ≠ []) (hfree : BraceFree content)
    {b : Char} (hb : b = '\x7b' ∨ b = '\x7d') (rest : List Char) :
    (content ++ rest).head? ≠ some b := by
  obtain ⟨c, content, rfl⟩ := List.exists_cons_of_ne_nil hne
  obtain ⟨hopen, hclose⟩ := hfree c List.mem_cons_self
  intro hhead
  rcases hb with rfl | rfl
  · exact hopen (Option.some.inj hhead)
  · exact hclose (Option.some.inj hhead)

/-- A placeholder counts once, whatever braces stand around it. -/
theorem countPairs_append_embrace {b : Char} (hb : b = '\x7b' ∨ b = '\x7d') (cs : List Char)
    {content : List Char} (hne : content ≠ []) (hfree : BraceFree content) (rest : List Char) :
    countPairs b (cs ++ (embrace content ++ rest)) = countPairs b cs + 1 + countPairs b rest := by
  rcases hb with rfl | rfl
  · have hopen := countPairs_open_embrace hfree rest
    have hhead := head?_append_ne hne hfree (.inl rfl) ('\x7d' :: '\x7d' :: rest)
    rw [embrace_append] at hopen ⊢
    rw [countPairs_pair] at hopen
    rw [countPairs_append_pair cs hhead]
    omega
  · have hclose := countPairs_close_embrace hfree rest
    rw [embrace_append] at hclose ⊢
    rw [countPairs_append cs (by simp), hclose]
    omega

/-- The double braces of one kind in the literals. -/
def strays (b : Char) (cs : List Char) : Nat :=
  ((literals cs).map (countPairs b)).sum

/-- A text in front of another one runs on into its first literal. -/
theorem countPairs_append_literals {b : Char} (hb : b = '\x7b' ∨ b = '\x7d') (cs : List Char)
    {literal : List Char} {others : List (List Char)} (h : literals cs = literal :: others)
    (front : List Char) :
    countPairs b (front ++ cs) =
      countPairs b (front ++ literal) + (contents cs).length + (others.map (countPairs b)).sum := by
  induction cs using scan_induction generalizing front literal others with
  | nil =>
    cases h
    rfl
  | char c cs hnone ih =>
    obtain ⟨first, tail, hfirst⟩ := exists_literals cs
    rw [literals_cons_of_none hnone, hfirst] at h
    cases h
    rw [contents_cons_of_none hnone, List.append_cons, ih hfirst, ← List.append_cons]
  | placeholder content rest hne hfree ih =>
    obtain ⟨first, tail, hfirst⟩ := exists_literals rest
    have hrest := ih hfirst []
    rw [literals_embrace hne hfree, hfirst] at h
    cases h
    rw [List.nil_append, List.nil_append] at hrest
    rw [countPairs_append_embrace hb front hne hfree, contents_embrace hne hfree, List.append_nil,
      hrest, List.map_cons, List.sum_cons, List.length_cons]
    omega

/-- Every double brace is counted in a placeholder or in a literal. -/
theorem countPairs_eq_strays {b : Char} (hb : b = '\x7b' ∨ b = '\x7d') (cs : List Char) :
    countPairs b cs = (contents cs).length + strays b cs := by
  obtain ⟨literal, others, hliterals⟩ := exists_literals cs
  have hcount := countPairs_append_literals hb cs hliterals []
  rw [List.nil_append, List.nil_append] at hcount
  rw [hcount, strays, hliterals, List.map_cons, List.sum_cons]
  omega

theorem strays_eq_zero_iff {b : Char} {cs : List Char} :
    strays b cs = 0 ↔ ∀ literal ∈ literals cs, ¬ [b, b] <:+: literal := by
  rw [strays, List.sum_eq_zero_iff, List.forall_mem_map]
  exact forall₂_congr fun _ _ => countPairs_eq_zero_iff

/-! ### Braces that close -/

/-- The next braces are closing ones. -/
def Closes (cs : List Char) : Prop :=
  ∃ content behind, BraceFree content ∧ cs = content ++ '\x7d' :: '\x7d' :: behind

/-- Two opening braces, the last ones where there are more, are closed before any other brace. -/
def PairsClose (cs : List Char) : Prop :=
  ∀ front rest, cs = front ++ '\x7b' :: '\x7b' :: rest → rest.head? ≠ some '\x7b' → Closes rest

theorem pairsClose_nil : PairsClose [] := by
  intro front rest heq
  simp at heq

theorem pairsClose_cons {c : Char} {cs : List Char} :
    PairsClose (c :: cs) ↔
      (∀ rest, c :: cs = '\x7b' :: '\x7b' :: rest → rest.head? ≠ some '\x7b' → Closes rest) ∧
        PairsClose cs := by
  constructor
  · intro h
    refine ⟨fun rest heq => h [] rest heq, fun front rest heq => ?_⟩
    exact h (c :: front) rest (by rw [heq, List.cons_append])
  · rintro ⟨hstart, hlater⟩ front rest heq
    cases front with
    | nil => exact hstart rest heq
    | cons d front => exact hlater front rest (List.cons.inj heq).2

theorem pairsClose_append_of_not_mem {cs : List Char} (h : '\x7b' ∉ cs) (rest : List Char) :
    PairsClose (cs ++ rest) ↔ PairsClose rest := by
  induction cs with
  | nil => rfl
  | cons c cs ih =>
    rw [List.mem_cons, not_or] at h
    rw [List.cons_append, pairsClose_cons, ih h.2, and_iff_right_iff_imp]
    exact fun _ _ heq => absurd (List.cons.inj heq).1.symm h.1

theorem pairsClose_embrace {content : List Char} (hne : content ≠ []) (hfree : BraceFree content)
    (rest : List Char) : PairsClose (embrace content ++ rest) ↔ PairsClose rest := by
  have hmem : '\x7b' ∉ content ++ ['\x7d', '\x7d'] := by
    rw [List.mem_append, not_or]
    exact ⟨hfree.not_mem_open, by decide⟩
  have hbehind := pairsClose_append_of_not_mem hmem rest
  rw [List.append_assoc] at hbehind
  rw [embrace_append, pairsClose_cons, pairsClose_cons]
  constructor
  · exact fun h => hbehind.mp h.2.2
  · intro h
    refine ⟨fun rest' heq _ => ?_, fun rest' heq => ?_, hbehind.mpr h⟩
    · exact ⟨content, rest, hfree, (List.cons.inj (List.cons.inj heq).2).2.symm⟩
    · have hhead := head?_append_ne hne hfree (.inl rfl) ('\x7d' :: '\x7d' :: rest)
      rw [(List.cons.inj heq).2] at hhead
      exact absurd rfl hhead

/-- The first literal goes on with a character at which no placeholder opens. -/
theorem exists_literals_cons {c : Char} {cs : List Char}
    (h : takePlaceholder? (c :: cs) = none) :
    ∃ literal others, literals cs = literal :: others ∧
      literals (c :: cs) = (c :: literal) :: others := by
  obtain ⟨literal, others, hliterals⟩ := exists_literals cs
  exact ⟨literal, others, hliterals, by rw [literals_cons_of_none h, hliterals]; rfl⟩

theorem takePlaceholder?_brace {cs : List Char} (h : cs.head? ≠ some '\x7b') :
    takePlaceholder? ('\x7b' :: cs) = none := by
  unfold takePlaceholder?
  split
  · rename_i heq
    rw [(List.cons.inj heq).2] at h
    exact absurd rfl h
  · rfl

theorem pairsClose_of_literals {cs : List Char}
    (h : ∀ literal ∈ literals cs, ¬ ['\x7b', '\x7b'] <:+: literal) : PairsClose cs := by
  induction cs using scan_induction with
  | nil => exact pairsClose_nil
  | char c cs hnone ih =>
    obtain ⟨literal, others, hcs, hcons⟩ := exists_literals_cons hnone
    rw [hcons, List.forall_mem_cons] at h
    rw [hcs, List.forall_mem_cons] at ih
    refine pairsClose_cons.mpr ⟨?_, ih ⟨fun hin => h.1 (List.infix_cons hin), h.2⟩⟩
    intro rest heq hhead
    obtain ⟨rfl, rfl⟩ := List.cons.inj heq
    -- The second brace opens no placeholder either, so both stand in the literal.
    obtain ⟨tail, _, -, hbrace⟩ := exists_literals_cons (takePlaceholder?_brace hhead)
    obtain rfl := (List.cons.inj (hcs.symm.trans hbrace)).1
    exact absurd (List.prefix_append _ tail).isInfix h.1
  | placeholder content rest hne hfree ih =>
    rw [literals_embrace hne hfree, List.forall_mem_cons] at h
    exact (pairsClose_embrace hne hfree rest).mpr (ih h.2)

/-! ### What the check leaves -/

theorem findOffset?_cons_eq_none_iff {holds : List Char → Bool} {offset : Nat} {c : Char}
    {cs : List Char} : findOffset? holds offset (c :: cs) = none ↔
      holds (c :: cs) = false ∧ findOffset? holds (offset + c.utf8Size) cs = none := by
  rw [findOffset?]
  split
  · rename_i hholds
    simp [hholds]
  · rename_i hfalse
    simp [hfalse]

theorem neverFrom_of_findOffset? {holds : List Char → Bool} {offset : Nat} {cs : List Char}
    (h : findOffset? holds offset cs = none) : NeverFrom holds cs := by
  induction cs generalizing offset with
  | nil => exact neverFrom_nil holds
  | cons c cs ih =>
    obtain ⟨hstart, hlater⟩ := findOffset?_cons_eq_none_iff.mp h
    exact neverFrom_cons hstart (ih hlater)

theorem neverFrom_cons_iff {holds : List Char → Bool} {c : Char} {cs : List Char} :
    NeverFrom holds (c :: cs) ↔ holds (c :: cs) = false ∧ NeverFrom holds cs := by
  refine ⟨fun h => ?_, fun h => neverFrom_cons h.1 h.2⟩
  obtain ⟨hstart, hlater⟩ := findOffset?_cons_eq_none_iff.mp (h 0)
  exact ⟨hstart, neverFrom_of_findOffset? hlater⟩

theorem NeverFrom.of_append {holds : List Char → Bool} {front rest : List Char}
    (h : NeverFrom holds (front ++ rest)) : NeverFrom holds rest := by
  induction front with
  | nil => exact h
  | cons c front ih => exact ih (neverFrom_cons_iff.mp h).2

theorem neverFrom_of_check {template : String} (h : check template = .ok ()) :
    NeverFrom opensBlank template.toList ∧ NeverFrom opensNested template.toList := by
  have hbalance := countPairs_eq_of_check h
  simp only [check, hbalance, ne_eq, not_true_eq_false, if_false] at h
  split at h
  · cases h
  · rename_i hblank
    split at h
    · cases h
    · rename_i hnested
      exact ⟨neverFrom_of_findOffset? hblank, neverFrom_of_findOffset? hnested⟩

theorem exists_of_literals_cons {cs tail : List Char} {c : Char} {others : List (List Char)}
    (h : literals cs = (c :: tail) :: others) :
    ∃ rest, cs = c :: rest ∧ literals rest = tail :: others := by
  cases cs with
  | nil => cases h
  | cons d cs =>
    cases htake : takePlaceholder? (d :: cs) with
    | none =>
      obtain ⟨literal, others', hcs, hcons⟩ := exists_literals_cons htake
      rw [hcons] at h
      cases h
      exact ⟨cs, rfl, hcs⟩
    | some found =>
      obtain ⟨hne, hfree, hcs⟩ := (takePlaceholder?_eq_some_iff _ found.1 found.2).mp htake
      rw [hcs, literals_embrace hne hfree] at h
      cases h

theorem opensNested_pair (cs : List Char) :
    opensNested ('\x7b' :: '\x7b' :: '\x7b' :: '\x7b' :: cs) = true := by
  simp [opensNested, countPairs]

theorem opensBlank_pair (cs : List Char) :
    opensBlank ('\x7b' :: '\x7b' :: '\x7d' :: '\x7d' :: cs) = true := by
  have hclose : Text.isBlank '\x7d' = false := by decide
  rw [opensBlank, Text.trimStart_cons_of_not_blank hclose]
  rfl

/-- A pair that stands in a literal and closes would be a placeholder, unless it closes at once and
is a blank one, or a placeholder opens behind it and is nested in it. -/
theorem not_closes_of_literals {rest tail : List Char} {others : List (List Char)}
    (hliterals : literals rest = tail :: others)
    (hnone : takePlaceholder? ('\x7b' :: '\x7b' :: rest) = none)
    (hblank : opensBlank ('\x7b' :: '\x7b' :: rest) = false)
    (hnested : opensNested ('\x7b' :: '\x7b' :: rest) = false)
    (hclose : rest.head? ≠ some '\x7b' → Closes rest) : ∃ tail', tail = '\x7b' :: tail' := by
  by_cases hhead : rest.head? = some '\x7b'
  · obtain ⟨rest', rfl⟩ := List.head?_eq_some_iff.mp hhead
    cases htake : takePlaceholder? ('\x7b' :: rest') with
    | none =>
      obtain ⟨literal, _, -, hcons⟩ := exists_literals_cons htake
      exact ⟨literal, (List.cons.inj (hliterals.symm.trans hcons)).1⟩
    | some found =>
      obtain ⟨-, -, hrest⟩ := (takePlaceholder?_eq_some_iff _ found.1 found.2).mp htake
      rw [hrest, embrace_append, opensNested_pair] at hnested
      cases hnested
  · obtain ⟨content, behind, hfree, rfl⟩ := hclose hhead
    by_cases hne : content = []
    · rw [hne, List.nil_append, opensBlank_pair] at hblank
      cases hblank
    · have htake := (takePlaceholder?_eq_some_iff _ content behind).mpr ⟨hne, hfree, rfl⟩
      rw [embrace_append, hnone] at htake
      cases htake

theorem not_infix_of_pairsClose {cs : List Char} (hblank : NeverFrom opensBlank cs)
    (hnested : NeverFrom opensNested cs) (h : PairsClose cs) :
    ∀ literal ∈ literals cs, ¬ ['\x7b', '\x7b'] <:+: literal := by
  induction cs using scan_induction with
  | nil => simp [literals, literalsOf, scan, scanFrom]
  | char c cs hnone ih =>
    obtain ⟨hblankHere, hblank⟩ := neverFrom_cons_iff.mp hblank
    obtain ⟨hnestedHere, hnested⟩ := neverFrom_cons_iff.mp hnested
    obtain ⟨hclose, h⟩ := pairsClose_cons.mp h
    obtain ⟨literal, others, hcs, hcons⟩ := exists_literals_cons hnone
    have hlater := ih hblank hnested h
    rw [hcs, List.forall_mem_cons] at hlater
    rw [hcons, List.forall_mem_cons]
    refine ⟨fun hin => ?_, hlater.2⟩
    rcases List.infix_cons_iff.mp hin with hstart | hinside
    · obtain ⟨tail, htail⟩ := hstart
      obtain ⟨rfl, hliteral⟩ := List.cons.inj htail
      rw [← hliteral] at hcs hlater
      obtain ⟨rest, rfl, hrest⟩ := exists_of_literals_cons hcs
      obtain ⟨tail', rfl⟩ := not_closes_of_literals hrest hnone hblankHere hnestedHere
        (hclose rest rfl)
      exact hlater.1 (List.prefix_append _ tail').isInfix
    · exact hlater.1 hinside
  | placeholder content rest hne hfree ih =>
    rw [literals_embrace hne hfree, List.forall_mem_cons]
    exact ⟨by simp, ih hblank.of_append hnested.of_append
      ((pairsClose_embrace hne hfree rest).mp h)⟩

/-! ### Templates that are accepted -/

theorem exists_unclosed_of_strays_ne {template : String}
    (h : strays '\x7b' template.toList ≠ strays '\x7d' template.toList) :
    ∃ position, parse template = .error (.unclosedPlaceholder template position) := by
  have hcount : countPairs '\x7b' template.toList ≠ countPairs '\x7d' template.toList := by
    rw [countPairs_eq_strays (.inl rfl), countPairs_eq_strays (.inr rfl)]
    omega
  rw [parse]
  simp only [check, ne_eq, hcount, not_false_eq_true, if_true]
  exact ⟨_, rfl⟩

theorem check_of_parse_eq_ok {template : String} {tokens : List Token}
    (h : parse template = .ok tokens) : check template = .ok () := by
  cases hcheck : check template with
  | ok => rfl
  | error e =>
    rw [parse, hcheck] at h
    cases h

theorem strays_eq_of_check {template : String} (h : check template = .ok ()) :
    strays '\x7b' template.toList = strays '\x7d' template.toList := by
  have hbalance := countPairs_eq_of_check h
  rw [countPairs_eq_strays (.inl rfl), countPairs_eq_strays (.inr rfl)] at hbalance
  omega

def Clean (cs : List Char) : Prop :=
  ∀ literal ∈ literals cs, ¬ ['\x7b', '\x7b'] <:+: literal ∧ ¬ ['\x7d', '\x7d'] <:+: literal

theorem clean_iff_strays {cs : List Char} :
    Clean cs ↔ strays '\x7b' cs = 0 ∧ strays '\x7d' cs = 0 := by
  rw [strays_eq_zero_iff, strays_eq_zero_iff, Clean]
  exact ⟨fun h => ⟨fun l hl => (h l hl).1, fun l hl => (h l hl).2⟩,
    fun h l hl => ⟨h.1 l hl, h.2 l hl⟩⟩

theorem clean_iff_pairsClose {template : String} (h : check template = .ok ()) :
    Clean template.toList ↔ PairsClose template.toList := by
  obtain ⟨hblank, hnested⟩ := neverFrom_of_check h
  constructor
  · exact fun hclean => pairsClose_of_literals fun literal hl => (hclean literal hl).1
  · intro hpairs
    have hopen := strays_eq_zero_iff.mpr (not_infix_of_pairsClose hblank hnested hpairs)
    exact clean_iff_strays.mpr ⟨hopen, (strays_eq_of_check h).symm.trans hopen⟩

/-- Double braces that are no placeholder's are refused unless as many open as close. In a template
that is accepted there are none exactly when the pairs that open close before any other brace.
Whatever stands outside the placeholders stays there when they are substituted. -/
theorem clean_of_parse (template : String) :
    weave (literals template.toList) ((contents template.toList).map embrace) = template.toList ∧
    (strays '\x7b' template.toList ≠ strays '\x7d' template.toList →
      ∃ position, parse template = .error (.unclosedPlaceholder template position)) ∧
    (∀ tokens, parse template = .ok tokens →
      (Clean template.toList ↔ PairsClose template.toList)) ∧
    ∀ replacement, (substitute template replacement).toList =
      weave (literals template.toList) ((contents template.toList).map (replaced replacement)) :=
  ⟨weave_literals template.toList, exists_unclosed_of_strays_ne,
    fun _ h => clean_iff_pairsClose (check_of_parse_eq_ok h), toList_substitute template⟩

instance (cs : List Char) : Decidable (Clean cs) :=
  inferInstanceAs (Decidable (∀ literal ∈ literals cs, _))

def extraBraces : String :=
  "\x7b\x7b\x7b Order.id \x7d\x7d\x7d of \x7b\x7bOrder.customer.name\x7d\x7d"

theorem clean_extraBraces :
    (strays '\x7b' "total \x7d\x7d".toList ≠ strays '\x7d' "total \x7d\x7d".toList ∧
      ∃ position, parse "total \x7d\x7d" =
        .error (.unclosedPlaceholder "total \x7d\x7d" position)) ∧
    (∃ tokens, parse extraBraces = .ok tokens) ∧ PairsClose extraBraces.toList := by
  have hstrays : strays '\x7b' "total \x7d\x7d".toList ≠
      strays '\x7d' "total \x7d\x7d".toList := by decide
  have hclean : Clean extraBraces.toList := by decide +kernel
  have hcheck : check extraBraces = .ok () := by rfl
  have hparse := parse_of_check hcheck
  exact ⟨⟨hstrays, (clean_of_parse _).2.1 hstrays⟩, ⟨_, hparse⟩,
    ((clean_of_parse extraBraces).2.2.1 _ hparse).mp hclean⟩

/-- Braces that close before they open balance: the template is accepted and both pairs stay. -/
theorem not_clean_of_reversed :
    parse "\x7d\x7dsale\x7b\x7b" = .ok [] ∧
      literals "\x7d\x7dsale\x7b\x7b".toList = ["\x7d\x7dsale\x7b\x7b".toList] ∧
      ¬ Clean "\x7d\x7dsale\x7b\x7b".toList := by
  refine ⟨by rfl, by decide, by decide⟩

end Placeholder.Template
