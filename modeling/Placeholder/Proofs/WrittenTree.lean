import Mathlib
import Placeholder.Proofs.TemporalGrammar

/-!
# Trees written as temporal expressions

A tree is written with the parentheses that it needs and no others: a disjunction inside of another
node stands in parentheses, and so does a conjunction inside of a conjunction or a negation. Reading
a written tree gives the tree, whatever white space is put between the lexemes, as long as there is
some between a condition and an operator that begins with its last character.
-/

namespace Placeholder.Temporal

open Text (Padding)
open Lexeme (Placed spread RunsInto)

/-- Where a tree stands: alone or in parentheses, between `||`, or between `&&` and behind `!`. -/
inductive Place where
  | whole
  | term
  | factor
  deriving DecidableEq

def joined (operator : Lexeme) : List (List Lexeme) → List Lexeme
  | [] => []
  | ls :: lss => ls ++ lss.flatMap (operator :: ·)

def enclosedIf (needed : Bool) (ls : List Lexeme) : List Lexeme :=
  if needed then .opening :: (ls ++ [.closing]) else ls

namespace Tree

section

variable (spell : Tree → List Char)

mutual

/-- The lexemes of a tree, its conditions in the given spelling. -/
def lexemes (place : Place) : Tree → List Lexeme
  | any ts => enclosedIf (place != .whole) (joined .or (allLexemes .term ts))
  | all ts => enclosedIf (place == .factor) (joined .and (allLexemes .factor ts))
  | not t => .not :: lexemes .factor t
  | t => [.condition (spell t)]

def allLexemes (place : Place) : List Tree → List (List Lexeme)
  | [] => []
  | t :: ts => lexemes place t :: allLexemes place ts

end

/-- A tree that can be written: its chains have two operands or more, and each of its leaves is what
its spelling denotes. -/
inductive Grammatical : Tree → Prop where
  | all {ts : List Tree} : 2 ≤ ts.length → (∀ t ∈ ts, Grammatical t) → Grammatical (.all ts)
  | any {ts : List Tree} : 2 ≤ ts.length → (∀ t ∈ ts, Grammatical t) → Grammatical (.any ts)
  | not {t : Tree} : Grammatical t → Grammatical (.not t)
  | condition {t : Tree} : Lexeme.IsCondition (spell t) → Denotes (spell t) t → Grammatical t

end

mutual

/-- How many negations and parentheses are open at once where a tree is written. -/
def nesting (place : Place) : Tree → Nat
  | any ts => allNesting .term ts + (place != .whole).toNat
  | all ts => allNesting .factor ts + (place == .factor).toNat
  | not t => nesting .factor t + 1
  | _ => 0

def allNesting (place : Place) : List Tree → Nat
  | [] => 0
  | t :: ts => max (nesting place t) (allNesting place ts)

end

variable {spell : Tree → List Char}

/-- A derivation has the lexemes of a written tree, its tree and no more nesting. -/
def Derives {α : Type} (derived : α → List Lexeme) (tree : α → Tree) (depth : α → Nat)
    (spell : Tree → List Char) (place : Place) (t : Tree) (a : α) : Prop :=
  derived a = t.lexemes spell place ∧ tree a = t ∧ depth a ≤ t.nesting place

theorem Derives.conjunction {place : Place} {t : Tree} {o : Operand}
    (h : Derives Operand.lexemes Operand.tree Operand.nesting spell place t o) :
    Derives Conjunction.lexemes Conjunction.tree Conjunction.nesting spell place t (.last o) :=
  h

theorem Derives.disjunction {place : Place} {t : Tree} {c : Conjunction}
    (h : Derives Conjunction.lexemes Conjunction.tree Conjunction.nesting spell place t c) :
    Derives Disjunction.lexemes Disjunction.tree Disjunction.nesting spell place t (.last c) :=
  h

theorem exists_derives_all {α : Type} {derived : α → List Lexeme} {tree : α → Tree} {depth : α → Nat}
    {place : Place} {ts : List Tree}
    (h : ∀ t ∈ ts, ∃ a, Derives derived tree depth spell place t a) :
    ∃ as : List α, as.map derived = allLexemes spell place ts ∧ as.map tree = ts ∧
      ∀ a ∈ as, depth a ≤ allNesting place ts := by
  induction ts with
  | nil => exact ⟨[], rfl, rfl, fun a ha => absurd ha List.not_mem_nil⟩
  | cons t ts ih =>
    obtain ⟨a, hlexemes, htree, hdepth⟩ := h t List.mem_cons_self
    obtain ⟨as, hothers, htrees, hdepths⟩ := ih fun u hu => h u (List.mem_cons_of_mem t hu)
    refine ⟨a :: as, ?_, ?_, List.forall_mem_cons.mpr ⟨?_, fun b hb => ?_⟩⟩
    · rw [List.map_cons, hlexemes, hothers, allLexemes]
    · rw [List.map_cons, htree, htrees]
    · rw [allNesting]
      omega
    · have hb := hdepths b hb
      rw [allNesting]
      omega

theorem lexemes_of_denotes {cs : List Char} {t : Tree} (h : Denotes cs t) (place : Place) :
    t.lexemes spell place = [.condition (spell t)] := by
  cases h <;> rw [lexemes] <;> simp

theorem ofAll_of_two_le {ts : List Tree} (h : 2 ≤ ts.length) : ofAll ts = .all ts := by
  match ts with
  | _ :: _ :: _ => rfl

theorem ofAny_of_two_le {ts : List Tree} (h : 2 ≤ ts.length) : ofAny ts = .any ts := by
  match ts with
  | _ :: _ :: _ => rfl

theorem joined_map {α : Type} (operator : Lexeme) (derived : α → List Lexeme) (a : α) (as : List α) :
    joined operator ((a :: as).map derived) =
      derived a ++ as.flatMap fun b => operator :: derived b := by
  rw [List.map_cons, joined, List.flatMap_map]

theorem exists_conjunction {ts : List Tree} (hlen : 2 ≤ ts.length)
    (h : ∀ t ∈ ts, ∃ o, Derives Operand.lexemes Operand.tree Operand.nesting spell .factor t o) :
    ∃ c : Conjunction, c.lexemes = joined .and (allLexemes spell .factor ts) ∧
      c.tree = .all ts ∧ c.nesting ≤ allNesting .factor ts := by
  obtain ⟨os, hlexemes, htrees, hdepths⟩ := exists_derives_all h
  cases os with
  | nil =>
    rw [← htrees] at hlen
    simp at hlen
  | cons o os =>
    refine ⟨.ofList o os, ?_, ?_, Conjunction.nesting_ofList_le.mpr hdepths⟩
    · rw [Conjunction.lexemes_ofList, ← hlexemes, joined_map]
    · rw [Conjunction.tree, Conjunction.trees_ofList, htrees, ofAll_of_two_le hlen]

theorem exists_disjunction {ts : List Tree} (hlen : 2 ≤ ts.length)
    (h : ∀ t ∈ ts,
      ∃ c, Derives Conjunction.lexemes Conjunction.tree Conjunction.nesting spell .term t c) :
    ∃ d : Disjunction, d.lexemes = joined .or (allLexemes spell .term ts) ∧
      d.tree = .any ts ∧ d.nesting ≤ allNesting .term ts := by
  obtain ⟨cs, hlexemes, htrees, hdepths⟩ := exists_derives_all h
  cases cs with
  | nil =>
    rw [← htrees] at hlen
    simp at hlen
  | cons c cs =>
    refine ⟨.ofList c cs, ?_, ?_, Disjunction.nesting_ofList_le.mpr hdepths⟩
    · rw [Disjunction.lexemes_ofList, ← hlexemes, joined_map]
    · rw [Disjunction.tree, Disjunction.trees_ofList, htrees, ofAny_of_two_le hlen]

/-- A written tree has derivations of every kind, for the places in which it may stand. -/
theorem Grammatical.derives {t : Tree} (h : Grammatical spell t) :
    (∃ o, Derives Operand.lexemes Operand.tree Operand.nesting spell .factor t o) ∧
      (∃ c, Derives Conjunction.lexemes Conjunction.tree Conjunction.nesting spell .term t c) ∧
      ∃ d, Derives Disjunction.lexemes Disjunction.tree Disjunction.nesting spell .whole t d := by
  induction h with
  | @all ts hlen _ ih =>
    obtain ⟨c, hlexemes, htree, hdepth⟩ := exists_conjunction hlen fun t ht => (ih t ht).1
    have hopen : ∀ place, place ≠ .factor →
        Derives Conjunction.lexemes Conjunction.tree Conjunction.nesting spell place (.all ts) c := by
      intro place hplace
      have hneeded : (place == .factor) = false := beq_eq_false_iff_ne.mpr hplace
      refine ⟨?_, htree, ?_⟩
      · rw [hlexemes, lexemes, hneeded]
        rfl
      · rw [nesting, hneeded]
        exact hdepth
    have hgroup : Derives Operand.lexemes Operand.tree Operand.nesting spell .factor (.all ts)
        (.group (.last c)) := by
      refine ⟨?_, htree, ?_⟩
      · change Lexeme.opening :: (c.lexemes ++ [.closing]) = _
        rw [hlexemes, lexemes]
        rfl
      · rw [nesting]
        exact Nat.succ_le_succ hdepth
    exact ⟨⟨_, hgroup⟩, ⟨c, hopen .term (by decide)⟩,
      ⟨_, (hopen .whole (by decide)).disjunction⟩⟩
  | @any ts hlen _ ih =>
    obtain ⟨d, hlexemes, htree, hdepth⟩ := exists_disjunction hlen fun t ht => (ih t ht).2.1
    have hopen : Derives Disjunction.lexemes Disjunction.tree Disjunction.nesting spell .whole
        (.any ts) d := by
      refine ⟨?_, htree, ?_⟩
      · rw [hlexemes, lexemes]
        rfl
      · rw [nesting]
        exact hdepth
    have hgroup : ∀ place, place ≠ .whole →
        Derives Operand.lexemes Operand.tree Operand.nesting spell place (.any ts) (.group d) := by
      intro place hplace
      have hneeded : (place != .whole) = true := bne_iff_ne.mpr hplace
      refine ⟨?_, htree, ?_⟩
      · change Lexeme.opening :: (d.lexemes ++ [.closing]) = _
        rw [hlexemes, lexemes, hneeded]
        rfl
      · rw [nesting, hneeded]
        exact Nat.succ_le_succ hdepth
    exact ⟨⟨_, hgroup .factor (by decide)⟩, ⟨_, (hgroup .term (by decide)).conjunction⟩, ⟨d, hopen⟩⟩
  | @not t _ ih =>
    obtain ⟨o, hlexemes, htree, hdepth⟩ := ih.1
    have hderives : ∀ place,
        Derives Operand.lexemes Operand.tree Operand.nesting spell place (.not t) (.negation o) := by
      intro place
      refine ⟨?_, congrArg Tree.not htree, ?_⟩
      · rw [lexemes, ← hlexemes]
        rfl
      · rw [nesting]
        exact Nat.succ_le_succ hdepth
    exact ⟨⟨_, hderives .factor⟩, ⟨_, (hderives .term).conjunction⟩,
      ⟨_, (hderives .whole).conjunction.disjunction⟩⟩
  | @condition t _ hdenotes =>
    have hderives : ∀ place,
        Derives Operand.lexemes Operand.tree Operand.nesting spell place t (.condition hdenotes) := by
      intro place
      refine ⟨?_, rfl, ?_⟩
      · rw [lexemes_of_denotes hdenotes]
        rfl
      · exact Nat.zero_le _
    exact ⟨⟨_, hderives .factor⟩, ⟨_, (hderives .term).conjunction⟩,
      ⟨_, (hderives .whole).conjunction.disjunction⟩⟩

/-! ### Conditions of a written tree -/

theorem mem_joined {operator l : Lexeme} {lss : List (List Lexeme)} (h : l ∈ joined operator lss) :
    l = operator ∨ ∃ ls ∈ lss, l ∈ ls := by
  cases lss with
  | nil => cases h
  | cons ls lss =>
    rcases List.mem_append.mp h with hl | hl
    · exact Or.inr ⟨ls, List.mem_cons_self, hl⟩
    · obtain ⟨ms, hms, hl⟩ := List.mem_flatMap.mp hl
      rcases List.mem_cons.mp hl with rfl | hl
      · exact Or.inl rfl
      · exact Or.inr ⟨ms, List.mem_cons_of_mem ls hms, hl⟩

theorem mem_enclosedIf {needed : Bool} {ls : List Lexeme} {cs : List Char}
    (h : .condition cs ∈ enclosedIf needed ls) : .condition cs ∈ ls := by
  cases needed with
  | false => exact h
  | true => simpa [enclosedIf] using h

theorem mem_allLexemes {place : Place} {ts : List Tree} {ls : List Lexeme}
    (h : ls ∈ allLexemes spell place ts) : ∃ t ∈ ts, ls = t.lexemes spell place := by
  induction ts with
  | nil => cases h
  | cons t ts ih =>
    rw [allLexemes] at h
    rcases List.mem_cons.mp h with rfl | h
    · exact ⟨t, List.mem_cons_self, rfl⟩
    · obtain ⟨u, hu, rfl⟩ := ih h
      exact ⟨u, List.mem_cons_of_mem t hu, rfl⟩

theorem mem_chain {needed : Bool} {operator : Lexeme} (hoperator : ∀ cs, operator ≠ .condition cs)
    {place : Place} {ts : List Tree} {cs : List Char}
    (h : .condition cs ∈ enclosedIf needed (joined operator (allLexemes spell place ts))) :
    ∃ t ∈ ts, .condition cs ∈ t.lexemes spell place := by
  rcases mem_joined (mem_enclosedIf h) with heq | ⟨ls, hls, hmem⟩
  · exact absurd heq.symm (hoperator cs)
  · obtain ⟨t, ht, rfl⟩ := mem_allLexemes hls
    exact ⟨t, ht, hmem⟩

theorem Grammatical.isCondition {t : Tree} (h : Grammatical spell t) {place : Place}
    {cs : List Char} (hcs : .condition cs ∈ t.lexemes spell place) : Lexeme.IsCondition cs := by
  induction h generalizing place with
  | all _ _ ih =>
    rw [lexemes] at hcs
    obtain ⟨t, ht, hmem⟩ := mem_chain (fun _ h => by cases h) hcs
    exact ih t ht hmem
  | any _ _ ih =>
    rw [lexemes] at hcs
    obtain ⟨t, ht, hmem⟩ := mem_chain (fun _ h => by cases h) hcs
    exact ih t ht hmem
  | not _ ih =>
    rw [lexemes] at hcs
    exact ih ((List.mem_cons.mp hcs).resolve_left fun h => by cases h)
  | condition hcondition hdenotes =>
    rw [lexemes_of_denotes hdenotes] at hcs
    cases List.mem_singleton.mp hcs
    exact hcondition

/-! ### Reading -/

section

variable {t : Tree} {ps : List Placed} {p : Placed}

theorem Grammatical.wellPlaced (h : Grammatical spell t) (hgaps : ∀ p ∈ ps, Padding p.gap)
    (hlexemes : ps.map Placed.lexeme = t.lexemes spell .whole) : Lexeme.WellPlaced ps where
  gaps := hgaps
  whole := by
    intro p hp cs hcs
    have hmem : p.lexeme ∈ ps.map Placed.lexeme := List.mem_map_of_mem hp
    rw [hlexemes, hcs] at hmem
    exact h.isCondition hmem
  chain := by
    obtain ⟨-, -, d, hd, -⟩ := h.derives
    rw [hlexemes, ← hd]
    exact d.isChain_lexemes

theorem wellPlaced_flush (h : Lexeme.WellPlaced (p :: ps)) :
    Lexeme.WellPlaced (⟨[], p.lexeme⟩ :: ps) where
  gaps := List.forall_mem_cons.mpr ⟨Text.padding_nil, h.tail.gaps⟩
  whole := List.forall_mem_cons.mpr ⟨h.whole p List.mem_cons_self, h.tail.whole⟩
  chain := h.chain

theorem spread_flush (h : Lexeme.WellPlaced (p :: ps)) :
    ∃ c tail, spread (⟨[], p.lexeme⟩ :: ps) = c :: tail ∧ Text.isBlank c = false := by
  obtain ⟨c, tail, htext, hc, -⟩ := Lexeme.visible_text (h.whole p List.mem_cons_self)
  exact ⟨c, tail ++ spread ps, by simp [spread, htext], hc⟩

/-- Reading drops the white space around the whole text. -/
theorem trim_spread (h : Lexeme.WellPlaced (p :: ps)) {after : List Char} (hafter : Padding after) :
    Text.trim (String.ofList (spread (p :: ps) ++ after)).toList =
      spread (⟨[], p.lexeme⟩ :: ps) := by
  obtain ⟨c, tail, hspread, hc⟩ := spread_flush h
  have hends := (wellPlaced_flush h).endsVisible (List.cons_ne_nil _ ps)
  have hwhole : spread (p :: ps) = p.gap ++ spread (⟨[], p.lexeme⟩ :: ps) := by simp [spread]
  rw [String.toList_ofList, hwhole, Text.trim_padded (h.gaps p List.mem_cons_self) hafter]
  rw [hspread] at hends ⊢
  exact hends.trimmed_cons hc

theorem read_of_scan_error {expression : String} (hblank : Text.trim expression.toList ≠ [])
    {e : GrammarError} (hscan : Lexeme.scan (Text.trim expression.toList) = .error e) :
    read expression = .error e := by
  have hempty : (Text.trim expression.toList).isEmpty = false := by simpa using hblank
  simp only [read, hempty, hscan, Bool.false_eq_true, if_false]
  rfl

/-- A written tree is read exactly when no condition runs into the operator behind it. -/
theorem read_spread_iff (h : Grammatical spell t) (hlimit : t.nesting .whole ≤ maxNesting)
    (hgaps : ∀ p ∈ ps, Padding p.gap) (hlexemes : ps.map Placed.lexeme = t.lexemes spell .whole)
    {after : List Char} (hafter : Padding after) :
    read (String.ofList (spread ps ++ after)) = .ok t ↔ ps.IsChain fun p q => ¬ RunsInto p q := by
  have hplaced := h.wellPlaced hgaps hlexemes
  obtain ⟨-, -, d, hd, htree, hdepth⟩ := h.derives
  cases ps with
  | nil => exact absurd (hd.trans hlexemes.symm) d.operandEnds.ne_nil
  | cons p ps =>
    have htrim := trim_spread hplaced hafter
    have hblank : Text.trim (String.ofList (spread (p :: ps) ++ after)).toList ≠ [] := by
      obtain ⟨c, tail, hspread, -⟩ := spread_flush hplaced
      rw [htrim, hspread]
      exact List.cons_ne_nil c tail
    have hchain : (p :: ps).IsChain (fun p q => ¬ RunsInto p q) ↔
        ((⟨[], p.lexeme⟩ : Placed) :: ps).IsChain fun p q => ¬ RunsInto p q := by
      rw [List.isChain_cons, List.isChain_cons]
      rfl
    have hflush := wellPlaced_flush hplaced
    rw [hchain]
    constructor
    · intro hread
      by_contra hruns
      obtain ⟨e, he⟩ := hflush.scan_error hruns
      rw [← htrim] at he
      rw [read_of_scan_error hblank he] at hread
      cases hread
    · intro happart
      obtain ⟨found, hscan, hfound⟩ := hflush.scan_eq happart
      rw [← htrim] at hscan
      exact (read_eq_ok_iff hblank hscan t).mpr
        ⟨d, hd.trans (hlexemes.symm.trans hfound.symm), hdepth.trans hlimit, htree⟩

end

/-- A text that is not blank and has lexemes is read as a tree exactly when its lexemes have a
derivation with no more than thirty-two negations and parentheses open at once, and the tree is that
of the derivation. A tree that is written with the parentheses that it needs, and with any white
space around its lexemes, is read as the tree exactly when no condition that ends in `&` or `|`
stands right in front of the operator that begins with the same character. -/
theorem read_grammar :
    (∀ expression : String, ¬ Padding expression.toList →
      ∀ ls, Lexeme.scan (Text.trim expression.toList) = .ok ls →
      ∀ t, read expression = .ok t ↔
        ∃ d : Disjunction, d.lexemes = plain ls ∧ d.nesting ≤ 32 ∧ d.tree = t) ∧
    ∀ (spell : Tree → List Char) (t : Tree) (ps : List Placed) (after : List Char),
      Grammatical spell t → t.nesting .whole ≤ 32 →
      ps.map Placed.lexeme = t.lexemes spell .whole → (∀ p ∈ ps, Padding p.gap) → Padding after →
      (read (String.ofList (spread ps ++ after)) = .ok t ↔
        ps.IsChain fun p q => ¬ RunsInto p q) := by
  constructor
  · intro expression hblank ls hscan t
    refine read_eq_ok_iff (fun hnil => hblank ?_) hscan t
    obtain ⟨a, b, ha, hb, hsplit⟩ := Text.exists_padding_trim expression.toList
    rw [hsplit, hnil, List.append_nil]
    exact Text.padding_append.mpr ⟨ha, hb⟩
  · intro spell t ps after h hlimit hlexemes hgaps hafter
    exact read_spread_iff h hlimit hgaps hlexemes hafter

/-- The text of a condition without blanks around its parts. -/
def conditionText : Tree → List Char
  | cron spec => "cron:".toList ++ spec.toList
  | nthWeekday day occurrences =>
    "nth:".toList ++ day.toList ++ ':' ::
      (",".intercalate (occurrences.map fun n => Text.intText n.toInt)).toList
  | lastWeekday day => "last:".toList ++ day.toList
  | timeRange text => text.toList
  | keyword name => name.toList
  | custom name => name.toList
  | _ => []

theorem read_weekday_unless_open :
    read " weekday &&!(cron:0 9 * * *  ||open)" =
        .ok (.all [.keyword "weekday", .not (.any [.cron "0 9 * * *", .custom "open"])]) ∧
      ∃ d : Disjunction,
        d.lexemes = [.condition "weekday".toList, .and, .not, .opening,
          .condition "cron:0 9 * * *".toList, .or, .condition "open".toList, .closing] ∧
        d.nesting ≤ 32 ∧
        d.tree = .all [.keyword "weekday", .not (.any [.cron "0 9 * * *", .custom "open"])] := by
  have hweekday : Grammatical conditionText (.keyword "weekday") :=
    .condition (.name rfl (List.all_eq_true.mp rfl)) (.keyword (by decide))
  have hcron : Grammatical conditionText (.cron "0 9 * * *") :=
    .condition (@Lexeme.IsCondition.cron "0 9 * * *".toList rfl rfl) (.cron _)
  have hopen : Grammatical conditionText (.custom "open") :=
    .condition (.name rfl (List.all_eq_true.mp rfl))
      (.custom (by decide) (by decide) (by decide) (fun _ _ h => by cases h) (by decide))
  have hbroken : Grammatical conditionText (.not (.any [.cron "0 9 * * *", .custom "open"])) :=
    .not (.any le_rfl (by simp [hcron, hopen]))
  have hchain : List.IsChain (fun p q => ¬ RunsInto p q)
      [⟨[' '], .condition "weekday".toList⟩, ⟨[' '], .and⟩, ⟨[], .not⟩, ⟨[], .opening⟩,
        ⟨[], .condition "cron:0 9 * * *".toList⟩, ⟨[' ', ' '], .or⟩, ⟨[], .condition "open".toList⟩,
        ⟨[], .closing⟩] := by
    simp [RunsInto]
  have hread := (read_grammar.2 conditionText
    (.all [.keyword "weekday", .not (.any [.cron "0 9 * * *", .custom "open"])]) _ []
    (.all le_rfl (by simp [hweekday, hbroken])) (by decide) rfl (by decide) (by decide)).mpr hchain
  exact ⟨hread, (read_grammar.1 " weekday &&!(cron:0 9 * * *  ||open)" (by decide) _ rfl _).mp hread⟩

/-- A cron condition that ends in `&` stands right in front of `&&`. -/
theorem read_adjoining :
    Grammatical conditionText (.all [.cron "x&", .custom "y"]) ∧
      (Tree.all [.cron "x&", .custom "y"]).nesting .whole ≤ 32 ∧
      ([⟨[], .condition "cron:x&".toList⟩, ⟨[], .and⟩, ⟨[], .condition "y".toList⟩] :
          List Placed).map Placed.lexeme =
        (Tree.all [.cron "x&", .custom "y"]).lexemes conditionText .whole ∧
      spread [⟨[], .condition "cron:x&".toList⟩, ⟨[], .and⟩, ⟨[], .condition "y".toList⟩] =
        "cron:x&&&y".toList ∧
      read "cron:x&&&y" ≠ .ok (.all [.cron "x&", .custom "y"]) := by
  have hcron : Grammatical conditionText (.cron "x&") :=
    .condition (@Lexeme.IsCondition.cron "x&".toList rfl rfl) (.cron _)
  have hcustom : Grammatical conditionText (.custom "y") :=
    .condition (.name rfl (List.all_eq_true.mp rfl))
      (.custom (by decide) (by decide) (by decide) (fun _ _ h => by cases h) (by decide))
  refine ⟨.all le_rfl (by simp [hcron, hcustom]), by decide, rfl, rfl, fun h => ?_⟩
  have hread : read "cron:x&&&y" = .error (.unexpectedCharacter "cron:x&&&y" "&" 8) := rfl
  rw [hread] at h
  cases h

end Tree

end Placeholder.Temporal
