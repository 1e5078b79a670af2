import Placeholder.Proofs.Trimming
import Placeholder.Proofs.WordRuns

/-!
# Snake case and camel case

A text in snake case is its words in small letters with single underscores between them, where a
capital behind a small letter begins a word. So snake case is taken to itself, and it finds the
words again that camel case has run together.
-/

namespace Placeholder.Text

/-! ### Small letters -/

theorem isAsciiAlnum_of_isSlugChar {c : Char} (h : isSlugChar c = true) :
    isAsciiAlnum c = true := by
  simp only [isSlugChar, isAsciiAlnum, Char.isAlphanum, Char.isAlpha, Bool.or_eq_true] at h ⊢
  exact h.imp_left Or.inr

theorem not_isUpper_of_isSlugChar {c : Char} (h : isSlugChar c = true) : c.isUpper = false := by
  simp only [isSlugChar, Bool.or_eq_true] at h
  rcases h with hlower | hdigit
  · simpa using Char.not_isUpper_of_isLower hlower
  · by_contra hupper
    simp only [Char.isUpper, Char.isDigit, Bool.not_eq_false, Bool.and_eq_true, decide_eq_true_eq,
      ge_iff_le, UInt32.le_iff_toNat_le] at hupper hdigit
    change 65 ≤ c.toNat ∧ c.toNat ≤ 90 at hupper
    change 48 ≤ c.toNat ∧ c.toNat ≤ 57 at hdigit
    omega

theorem isSlugChar_toLower {c : Char} (h : isAsciiAlnum c = true) :
    isSlugChar c.toLower = true := by
  simp only [isAsciiAlnum, Char.isAlphanum, Bool.or_eq_true] at h
  rcases h with halpha | hdigit
  · simp [isSlugChar, halpha]
  · have hslug : isSlugChar c = true := by simp [isSlugChar, hdigit]
    rwa [Char.toLower_eq_of_not_isUpper (by simp [not_isUpper_of_isSlugChar hslug])]

theorem lowerAscii_of_not_isUpper {cs : List Char} (h : ∀ c ∈ cs, c.isUpper = false) :
    lowerAscii cs = cs := by
  have heach : ∀ c ∈ cs, c.toLower = id c := fun c hc =>
    Char.toLower_eq_of_not_isUpper (by simp [h c hc])
  rw [lowerAscii, List.map_congr_left heach, List.map_id]

theorem IsRun.lowerAscii {w : List Char} (h : IsRun isAsciiAlnum w) :
    IsRun isSlugChar (lowerAscii w) := by
  refine ⟨by simp [Text.lowerAscii, h.1], fun c hc => ?_⟩
  obtain ⟨d, hd, rfl⟩ := List.mem_map.mp hc
  exact isSlugChar_toLower (h.2 d hd)

theorem lowerAscii_append (cs ds : List Char) :
    lowerAscii (cs ++ ds) = lowerAscii cs ++ lowerAscii ds :=
  List.map_append

theorem lowerAscii_underscore : lowerAscii ['_'] = ['_'] := by
  simp [lowerAscii]

theorem lowerAscii_intercalate (ws : List (List Char)) :
    lowerAscii (['_'].intercalate ws) = ['_'].intercalate (ws.map lowerAscii) := by
  cases ws with
  | nil => rfl
  | cons w ws => simp [intercalate_eq_flatMap, lowerAscii, List.map_flatMap, List.flatMap_map]

/-! ### Words with underscores between them -/

theorem isGap_underscore : IsGap isAsciiAlnum ['_'] := by
  simp [IsGap, isAsciiAlnum]

theorem isRun_lowered (cs : List Char) :
    ∀ w ∈ (nameWords cs).map lowerAscii, IsRun isSlugChar w := by
  intro w hw
  obtain ⟨v, hv, rfl⟩ := List.mem_map.mp hw
  exact (isRun_of_mem_runs hv).lowerAscii

theorem snake_eq_intercalate (cs : List Char) :
    snake cs = ['_'].intercalate ((nameWords (parted cs)).map lowerAscii) := by
  obtain ⟨front, back, hfront, hback, hnone, hfill⟩ :=
    fillRuns_eq_intercalate isAsciiAlnum ['_'] (parted cs)
  have hlower : ∀ {side : List Char}, side = [] ∨ side = ['_'] → lowerAscii side = side := by
    rintro side (rfl | rfl)
    · rfl
    · exact lowerAscii_underscore
  have hmark : ∀ {side : List Char}, side = [] ∨ side = ['_'] → ∀ c ∈ side, (c == '_') = true := by
    rintro side (rfl | rfl) <;> simp
  rw [snake, hfill, lowerAscii_append, lowerAscii_append, hlower hfront, hlower hback,
    lowerAscii_intercalate]
  have hwords := isRun_lowered (parted cs)
  rw [nameWords_eq_runs] at hwords ⊢
  cases hruns : runs isAsciiAlnum (parted cs) with
  | nil =>
    rw [hnone hruns]
    rcases hfront with rfl | rfl <;> rfl
  | cons w ws =>
    rw [hruns, List.map_cons] at hwords
    obtain ⟨⟨c, after, hc, hstart⟩, before, d, hd, hend⟩ := exists_edges (e := ['_']) hwords
    have hplain : ∀ {c : Char}, isSlugChar c = true → (c == '_') = false := by
      intro c hc
      rw [beq_eq_false_iff_ne]
      rintro rfl
      exact absurd hc (by decide)
    rw [List.map_cons]
    refine (trimBy_enclosed_iff (by rw [hstart]; exact List.cons_ne_nil _ _) (hmark hfront)
      (hmark hback)).mpr fun b hb => ?_
    rcases hb with hb | hb
    · rw [hstart, List.head?_cons] at hb
      rw [← Option.some.inj hb]
      exact hplain hc
    · rw [hend, List.getLast?_concat] at hb
      rw [← Option.some.inj hb]
      exact hplain hd

theorem parted_of_not_isUpper {cs : List Char} (h : ∀ c ∈ cs.tail, c.isUpper = false) :
    parted cs = cs := by
  induction cs with
  | nil => rfl
  | cons c cs ih =>
    cases cs with
    | nil => rfl
    | cons d cs =>
      obtain ⟨hd, hrest⟩ := List.forall_mem_cons.mp h
      rw [parted, hd, Bool.and_false, if_neg Bool.false_ne_true, ih hrest]

/-- Words in small letters that are joined with underscores are read back. -/
theorem snake_intercalate {ws : List (List Char)} (hws : ∀ w ∈ ws, IsRun isSlugChar w) :
    snake (['_'].intercalate ws) = ['_'].intercalate ws := by
  have hsmall : ∀ w ∈ ws, lowerAscii w = id w := fun w hw =>
    lowerAscii_of_not_isUpper fun c hc => not_isUpper_of_isSlugChar ((hws w hw).2 c hc)
  have hlowered : lowerAscii (['_'].intercalate ws) = ['_'].intercalate ws := by
    rw [lowerAscii_intercalate, List.map_congr_left hsmall, List.map_id]
  have hparted : parted (['_'].intercalate ws) = ['_'].intercalate ws := by
    refine parted_of_not_isUpper fun c hc => ?_
    have hmem := List.mem_of_mem_tail hc
    rw [← hlowered] at hmem
    obtain ⟨d, -, rfl⟩ := List.mem_map.mp hmem
    exact Char.isUpper_toLower_eq_false d
  have hruns : nameWords (['_'].intercalate ws) = ws :=
    runs_intercalate isGap_underscore fun w hw =>
      ⟨(hws w hw).1, fun c hc => isAsciiAlnum_of_isSlugChar ((hws w hw).2 c hc)⟩
  rw [snake_eq_intercalate, hparted, hruns, List.map_congr_left hsmall, List.map_id]

/-! ### Words run together -/

/-- A word of two small letters or more. -/
@[mk_iff]
structure IsPlainWord (w : List Char) : Prop where
  long : 2 ≤ w.length
  small : ∀ c ∈ w, c.isLower = true

/-- The word with a capital in front. -/
def raised (w : List Char) : List Char :=
  w.modifyHead Char.toUpper

theorem IsPlainWord.isRun {w : List Char} (h : IsPlainWord w) : IsRun isSlugChar w := by
  refine ⟨?_, fun c hc => by simp [isSlugChar, h.small c hc]⟩
  rintro rfl
  exact absurd h.long (by decide)

theorem IsPlainWord.isRun_alnum {w : List Char} (h : IsPlainWord w) : IsRun isAsciiAlnum w :=
  ⟨h.isRun.1, fun c hc => isAsciiAlnum_of_isSlugChar (h.isRun.2 c hc)⟩

theorem IsPlainWord.not_isUpper {w : List Char} (h : IsPlainWord w) :
    ∀ c ∈ w, c.isUpper = false := fun c hc =>
  not_isUpper_of_isSlugChar (h.isRun.2 c hc)

theorem IsPlainWord.lowerAscii_eq {w : List Char} (h : IsPlainWord w) : lowerAscii w = w :=
  lowerAscii_of_not_isUpper h.not_isUpper

theorem IsPlainWord.capitalize_eq {w : List Char} (h : IsPlainWord w) :
    capitalize w = raised w := by
  cases w with
  | nil => rfl
  | cons c cs =>
    have hrest : lowerAscii cs = cs :=
      lowerAscii_of_not_isUpper fun d hd => h.not_isUpper d (List.mem_cons_of_mem c hd)
    rw [capitalize, hrest, raised, List.modifyHead_cons]

/-- The words with the gaps in front of all but the first. -/
def spread (first : List Char) (rest : List (List Char × List Char)) : List Char :=
  first ++ rest.flatMap fun e => e.1 ++ e.2

theorem camel_spread {first : List Char} {rest : List (List Char × List Char)}
    (hfirst : IsPlainWord first) (hrest : ∀ e ∈ rest, IsGap isAsciiAlnum e.1 ∧ IsPlainWord e.2) :
    camel (spread first rest) = first ++ (rest.map fun e => raised e.2).flatten := by
  have hwords : nameWords (spread first rest) = first :: rest.map Prod.snd :=
    runs_spread hfirst.isRun_alnum fun e he => ⟨(hrest e he).1, (hrest e he).2.isRun_alnum⟩
  have hraised : (rest.map Prod.snd).map capitalize = rest.map fun e => raised e.2 := by
    rw [List.map_map]
    exact List.map_congr_left fun e he => (hrest e he).2.capitalize_eq
  rw [camel, hwords]
  dsimp only
  rw [hfirst.lowerAscii_eq, hraised]

/-- A word that ends in a small letter and has no capital but in front. -/
structure IsPart (w : List Char) : Prop where
  ends : ∃ front c, w = front ++ [c] ∧ c.isLower = true
  tail_small : ∀ c ∈ w.tail, c.isUpper = false

theorem IsPlainWord.isPart {w : List Char} (h : IsPlainWord w) : IsPart w := by
  obtain ⟨front, c, rfl⟩ := (List.eq_nil_or_concat' w).resolve_left h.isRun.1
  exact ⟨⟨front, c, rfl, h.small c (by simp)⟩,
    fun d hd => h.not_isUpper d (List.mem_of_mem_tail hd)⟩

/-- It takes a second letter to end in a small one behind the capital. -/
theorem IsPlainWord.isPart_raised {w : List Char} (h : IsPlainWord w) :
    IsPart (raised w) ∧ ∃ d back, raised w = d :: back ∧ d.isUpper = true := by
  obtain ⟨a, rest, rfl⟩ := List.exists_cons_of_ne_nil h.isRun.1
  obtain ⟨ha, hrest⟩ := List.forall_mem_cons.mp h.small
  have hne : rest ≠ [] := by
    rintro rfl
    exact absurd h.long (by simp)
  obtain ⟨front, c, rfl⟩ := (List.eq_nil_or_concat' rest).resolve_left hne
  have hupper : a.toUpper.isUpper = true := by
    rw [Char.isUpper_toUpper_eq_isAlpha, Char.isAlpha, ha, Bool.or_true]
  refine ⟨⟨⟨a.toUpper :: front, c, rfl, hrest c (by simp)⟩, fun d hd => ?_⟩, _, _, rfl, hupper⟩
  exact h.not_isUpper d (List.mem_cons_of_mem a hd)

theorem parted_append_cons {c d : Char} (hc : c.isLower = true) (hd : d.isUpper = true)
    (front back : List Char) :
    parted (front ++ c :: d :: back) = parted (front ++ [c]) ++ '_' :: parted (d :: back) := by
  induction front with
  | nil =>
    rw [List.nil_append, List.nil_append, parted, hc, hd]
    rfl
  | cons x front ih =>
    cases front with
    | nil =>
      have hpass : ∀ cs, parted (x :: c :: cs) = x :: parted (c :: cs) := by
        intro cs
        have hsmall : c.isUpper = false := by simpa using Char.not_isUpper_of_isLower hc
        rw [parted, hsmall, Bool.and_false, if_neg Bool.false_ne_true]
      simp only [List.nil_append, List.cons_append] at ih ⊢
      rw [hpass, hpass, ih, List.cons_append]
    | cons y front =>
      simp only [List.cons_append] at ih ⊢
      rw [parted, parted, ih]
      split <;> rfl

theorem parted_flatten {first : List Char} {rest : List (List Char)} (hfirst : IsPart first)
    (hrest : ∀ w ∈ rest, IsPart w ∧ ∃ d back, w = d :: back ∧ d.isUpper = true) :
    parted (first ++ rest.flatten) = ['_'].intercalate (first :: rest) := by
  induction rest generalizing first with
  | nil =>
    rw [List.flatten_nil, List.append_nil, List.intercalate_singleton]
    exact parted_of_not_isUpper hfirst.tail_small
  | cons w rest ih =>
    obtain ⟨⟨hw, d, back, rfl, hd⟩, hothers⟩ := List.forall_mem_cons.mp hrest
    have hnext := ih hw hothers
    have hwhole := parted_of_not_isUpper hfirst.tail_small
    obtain ⟨front, c, rfl, hc⟩ := hfirst.ends
    have hsplit : front ++ [c] ++ ((d :: back) :: rest).flatten =
        front ++ c :: d :: (back ++ rest.flatten) := by simp
    rw [List.cons_append] at hnext
    rw [hsplit, parted_append_cons hc hd, hwhole, hnext, List.intercalate_cons_cons]
    simp

theorem lowerAscii_raised {w : List Char} (h : IsPlainWord w) : lowerAscii (raised w) = w := by
  cases w with
  | nil => rfl
  | cons c cs =>
    have hwhole := h.lowerAscii_eq
    simp only [lowerAscii, List.map_cons] at hwhole
    simp only [raised, lowerAscii, List.modifyHead_cons, List.map_cons,
      Char.toLower_toUpper_eq_toLower, hwhole]

theorem IsPlainWord.isRun_raised {w : List Char} (h : IsPlainWord w) :
    IsRun isAsciiAlnum (raised w) := by
  obtain ⟨c, cs, rfl⟩ := List.exists_cons_of_ne_nil h.isRun.1
  refine ⟨List.cons_ne_nil _ _, fun d hd => ?_⟩
  rcases List.mem_cons.mp hd with rfl | hd
  · have hc := h.small c List.mem_cons_self
    simp [isAsciiAlnum, Char.isAlphanum, Char.isAlpha, hc]
  · exact h.isRun_alnum.2 d (List.mem_cons_of_mem c hd)

/-- The words that run together are found again at their capitals. -/
theorem snake_raised {first : List Char} {rest : List (List Char)} (hfirst : IsPlainWord first)
    (hrest : ∀ w ∈ rest, IsPlainWord w) :
    snake (first ++ (rest.map raised).flatten) = ['_'].intercalate (first :: rest) := by
  have hparted : parted (first ++ (rest.map raised).flatten) =
      ['_'].intercalate (first :: rest.map raised) :=
    parted_flatten hfirst.isPart (List.forall_mem_map.mpr fun w hw => (hrest w hw).isPart_raised)
  have hwords : nameWords (['_'].intercalate (first :: rest.map raised)) =
      first :: rest.map raised := by
    refine runs_intercalate isGap_underscore (List.forall_mem_cons.mpr ⟨hfirst.isRun_alnum, ?_⟩)
    exact List.forall_mem_map.mpr fun w hw => (hrest w hw).isRun_raised
  have hlowered : (rest.map raised).map lowerAscii = rest := by
    rw [List.map_map]
    exact (List.map_congr_left fun w hw => lowerAscii_raised (hrest w hw)).trans (List.map_id rest)
  rw [snake_eq_intercalate, hparted, hwords, List.map_cons, hfirst.lowerAscii_eq, hlowered]

/-- Snake case gives small words with single underscores between them and is taken to itself. Camel
case runs words together that stand apart, each but the first with a capital, and snake case takes
them apart again. -/
theorem snake_canonical_camel :
    (∀ cs, (∃ ws, (∀ w ∈ ws, IsRun isSlugChar w) ∧ snake cs = ['_'].intercalate ws) ∧
        snake (snake cs) = snake cs) ∧
      ∀ first rest, IsPlainWord first →
        (∀ e ∈ rest, IsGap isAsciiAlnum e.1 ∧ IsPlainWord e.2) →
        camel (spread first rest) = first ++ (rest.map fun e => raised e.2).flatten ∧
          snake (camel (spread first rest)) = ['_'].intercalate (first :: rest.map Prod.snd) := by
  refine ⟨fun cs => ?_, fun first rest hfirst hrest => ?_⟩
  · have hwords := isRun_lowered (parted cs)
    have hsnake := snake_eq_intercalate cs
    exact ⟨⟨_, hwords, hsnake⟩, by rw [hsnake, snake_intercalate hwords]⟩
  · have hcamel := camel_spread hfirst hrest
    have hwords : ∀ w ∈ rest.map Prod.snd, IsPlainWord w := by
      intro w hw
      obtain ⟨e, he, rfl⟩ := List.mem_map.mp hw
      exact (hrest e he).2
    refine ⟨hcamel, ?_⟩
    rw [hcamel, show (rest.map fun e => raised e.2) = (rest.map Prod.snd).map raised by simp]
    exact snake_raised hfirst hwords

theorem snake_camel_orderLine :
    IsPlainWord "order".toList ∧
      (∀ e ∈ [("_- ".toList, "line".toList), (".".toList, "no".toList)],
        IsGap isAsciiAlnum e.1 ∧ IsPlainWord e.2) ∧
      camel "order_- line.no".toList = "orderLineNo".toList ∧
      snake (camel "order_- line.no".toList) = "order_line_no".toList := by
  have horder : IsPlainWord "order".toList := ⟨by decide, by simp⟩
  have hrest : ∀ e ∈ [("_- ".toList, "line".toList), (".".toList, "no".toList)],
      IsGap isAsciiAlnum e.1 ∧ IsPlainWord e.2 := by
    simp [IsGap, isAsciiAlnum, isPlainWord_iff]
  obtain ⟨hcamel, hsnake⟩ := snake_canonical_camel.2 _ _ horder hrest
  exact ⟨horder, hrest, hcamel, hsnake⟩

end Placeholder.Text
