import Mathlib
import Placeholder.Proofs.TemporalLexemes

/-!
# Lexemes with white space between them

The lexemes of an expression may stand with any white space in front of each. Scanning finds them
again exactly when no condition runs into the operator behind it: a condition that ends in `&` or `|`
needs white space in front of an operator that begins with the same character.
-/

namespace Placeholder.Temporal

open Text (Padding EndsVisible isBlank)

namespace Lexeme

/-- A lexeme and the white space in front of it. -/
structure Placed where
  gap : List Char
  lexeme : Lexeme

def spread (ps : List Placed) : List Char :=
  ps.flatMap fun p => p.gap ++ p.lexeme.text

/-- An operator stands right behind a condition that ends in the character of the operator. -/
def RunsInto (p q : Placed) : Prop :=
  q.gap = [] ∧ ∃ cs, q.lexeme = and ∧ p.lexeme = condition (cs ++ ['&']) ∨
    q.lexeme = or ∧ p.lexeme = condition (cs ++ ['|'])

def IsOperator (l : Lexeme) : Prop :=
  l = and ∨ l = or

instance (l : Lexeme) : Decidable l.IsOperator :=
  inferInstanceAs (Decidable (l = and ∨ l = or))

/-- What may follow a lexeme: a condition is not followed by the start of an operand, and an operator
not by another one. -/
def Follows (l m : Lexeme) : Prop :=
  (∀ cs, l = condition cs → m = and ∨ m = or ∨ m = closing) ∧ (l.IsOperator → ¬ m.IsOperator)

/-- Lexemes in an order in which they may follow each other, conditions whole and white space between
them. -/
structure WellPlaced (ps : List Placed) : Prop where
  gaps : ∀ p ∈ ps, Padding p.gap
  whole : ∀ p ∈ ps, ∀ cs, p.lexeme = condition cs → IsCondition cs
  chain : (ps.map Placed.lexeme).IsChain Follows

theorem WellPlaced.tail {p : Placed} {ps : List Placed} (h : WellPlaced (p :: ps)) :
    WellPlaced ps where
  gaps := fun q hq => h.gaps q (List.mem_cons_of_mem p hq)
  whole := fun q hq => h.whole q (List.mem_cons_of_mem p hq)
  chain := h.chain.tail

theorem visible_text {l : Lexeme} (h : ∀ cs, l = condition cs → IsCondition cs) :
    ∃ c tail, l.text = c :: tail ∧ isBlank c = false ∧ EndsVisible l.text := by
  cases l with
  | condition cs => exact (h cs rfl).visible
  | and => exact ⟨'&', ['&'], rfl, rfl, ['&'], '&', rfl, rfl⟩
  | or => exact ⟨'|', ['|'], rfl, rfl, ['|'], '|', rfl, rfl⟩
  | not => exact ⟨'!', [], rfl, rfl, [], '!', rfl, rfl⟩
  | opening => exact ⟨'(', [], rfl, rfl, [], '(', rfl, rfl⟩
  | closing => exact ⟨')', [], rfl, rfl, [], ')', rfl, rfl⟩

theorem WellPlaced.endsVisible {ps : List Placed} (h : WellPlaced ps) (hne : ps ≠ []) :
    EndsVisible (spread ps) := by
  induction ps with
  | nil => contradiction
  | cons p ps ih =>
    obtain ⟨-, -, -, -, hp⟩ := visible_text (h.whole p List.mem_cons_self)
    cases ps with
    | nil => simpa [spread] using hp.append_left p.gap
    | cons q qs => exact (ih h.tail (List.cons_ne_nil q qs)).append_left _

theorem apart_of_not_runsInto {p q : Placed} {cs : List Char} (hcs : p.lexeme = condition cs)
    (hwhole : IsCondition cs) (hfollows : Follows p.lexeme q.lexeme) (h : ¬ RunsInto p q)
    (hgap : q.gap = []) (rest : List Char) : Apart cs (q.lexeme.text ++ rest) := by
  intro c hlast hhead
  obtain ⟨front, rfl⟩ := List.getLast?_eq_some_iff.mp hlast
  rcases hfollows.1 _ hcs with hq | hq | hq <;> rw [hq] at hhead <;> cases hhead
  · exact h ⟨hgap, front, Or.inl ⟨hq, hcs⟩⟩
  · exact h ⟨hgap, front, Or.inr ⟨hq, hcs⟩⟩
  · exact hwhole.last_ne_closing hlast

/-- A lexeme is taken as it is written; blanks behind a condition may be passed over with it. -/
theorem WellPlaced.take?_eq {p : Placed} {ps : List Placed} (h : WellPlaced (p :: ps))
    (happart : ∀ q ∈ ps.head?, ¬ RunsInto p q) :
    ∃ left gap rest, left <:+ gap ∧ Padding gap ∧ spread ps = gap ++ rest ∧
      take? (p.lexeme.text ++ spread ps) = some (p.lexeme, left ++ rest) := by
  have hp := h.whole p List.mem_cons_self
  cases ps with
  | nil =>
    refine ⟨[], [], [], List.suffix_rfl, Text.padding_nil, rfl, ?_⟩
    cases hlexeme : p.lexeme with
    | condition cs => simpa [spread, text] using (isCondition_iff cs).mp (hp cs hlexeme)
    | _ => rfl
  | cons q qs =>
    have hfollows : Follows p.lexeme q.lexeme := (List.isChain_cons_cons.mp h.chain).1
    have hgap : Padding q.gap := h.gaps q (by simp)
    have hspread : spread (q :: qs) = q.gap ++ (q.lexeme.text ++ spread qs) := by simp [spread]
    rw [hspread]
    cases hlexeme : p.lexeme with
    | condition cs =>
      have hbreak : Lexeme.atBreak (q.lexeme.text ++ spread qs) = true := by
        rcases hfollows.1 cs hlexeme with hq | hq | hq <;> rw [hq] <;> rfl
      obtain ⟨left, hleft, htake⟩ := take?_condition hgap (Or.inr hbreak) (hp cs hlexeme)
        fun hnil => apart_of_not_runsInto hlexeme (hp cs hlexeme) hfollows (happart q rfl) hnil _
      exact ⟨left, q.gap, _, hleft, hgap, rfl, htake⟩
    | _ => exact ⟨q.gap, q.gap, _, List.suffix_rfl, hgap, rfl, rfl⟩

theorem scanFrom_padding {gap : List Char} (hgap : Padding gap) (source : List Char) (fuel : Nat)
    (cs : List Char) :
    scanFrom source fuel (gap ++ cs) = scanFrom source fuel cs := by
  cases fuel with
  | zero => rfl
  | succ fuel => rw [scanFrom, scanFrom, Text.trimStart_append_of_padding hgap]

theorem scanFrom_lexeme {c : Char} (hc : isBlank c = false) {tail rest : List Char} {l : Lexeme}
    (htake : take? (c :: tail) = some (l, rest)) (source : List Char) (fuel : Nat) :
    scanFrom source (fuel + 1) (c :: tail) =
      (scanFrom source fuel rest).map (⟨l, source.length - (c :: tail).length⟩ :: ·) := by
  rw [scanFrom, Text.trimStart_cons_of_not_blank hc]
  simp only [htake]

/-- One lexeme is scanned, if it does not run into the next one. -/
theorem WellPlaced.scanFrom_cons {p : Placed} {ps : List Placed} (h : WellPlaced (p :: ps))
    (happart : ∀ q ∈ ps.head?, ¬ RunsInto p q) (source : List Char) (fuel : Nat) :
    scanFrom source (fuel + 1) (spread (p :: ps)) =
      (scanFrom source fuel (spread ps)).map
        (⟨p.lexeme, source.length - (p.lexeme.text ++ spread ps).length⟩ :: ·) := by
  obtain ⟨left, gap, rest, hleft, hgap, hspread, htake⟩ := h.take?_eq happart
  obtain ⟨c, tail, htext, hc, -⟩ := visible_text (h.whole p List.mem_cons_self)
  have hleft' : Padding left := fun b hb => hgap b (hleft.subset hb)
  have hcons : spread (p :: ps) = p.gap ++ (p.lexeme.text ++ spread ps) := by simp [spread]
  rw [hcons, scanFrom_padding (h.gaps p List.mem_cons_self)]
  rw [htext, List.cons_append] at htake ⊢
  rw [scanFrom_lexeme hc htake, scanFrom_padding hleft', hspread, scanFrom_padding hgap]

theorem length_spread_cons {p : Placed} {ps : List Placed} (h : WellPlaced (p :: ps)) :
    (spread ps).length < (spread (p :: ps)).length := by
  obtain ⟨c, tail, htext, -⟩ := visible_text (h.whole p List.mem_cons_self)
  simp [spread, htext]
  omega

theorem WellPlaced.scanFrom_eq {ps : List Placed} (h : WellPlaced ps)
    (happart : ps.IsChain fun p q => ¬ RunsInto p q) (source : List Char) {fuel : Nat}
    (hfuel : (spread ps).length ≤ fuel) :
    ∃ found, scanFrom source fuel (spread ps) = .ok found ∧ plain found = ps.map Placed.lexeme := by
  induction ps generalizing fuel with
  | nil => cases fuel <;> exact ⟨[], rfl, rfl⟩
  | cons p ps ih =>
    obtain ⟨hnext, htail⟩ := List.isChain_cons.mp happart
    have hshorter := length_spread_cons h
    obtain ⟨fuel, rfl⟩ := Nat.exists_eq_add_of_le' (show 1 ≤ fuel by omega)
    obtain ⟨found, hscan, hfound⟩ := ih h.tail htail (show (spread ps).length ≤ fuel by omega)
    rw [h.scanFrom_cons hnext, hscan]
    exact ⟨_, rfl, congrArg (p.lexeme :: ·) hfound⟩

/-- Behind an operator stands no further character of an operator. -/
theorem WellPlaced.head_ne {p : Placed} {ps : List Placed} (h : WellPlaced (p :: ps))
    (hp : p.lexeme.IsOperator) {c : Char} (hc : c = '&' ∨ c = '|') : c ∉ (spread ps).head? := by
  intro hhead
  cases ps with
  | nil => cases hhead
  | cons q qs =>
    have hq := (List.isChain_cons_cons.mp h.chain).1.2 hp
    have hspread : spread (q :: qs) = q.gap ++ (q.lexeme.text ++ spread qs) := by simp [spread]
    rw [hspread] at hhead
    cases hgap : q.gap with
    | cons b gap =>
      have hblank : isBlank b = true := h.gaps q (by simp) b (by simp [hgap])
      rw [hgap] at hhead
      cases hhead
      rcases hc with rfl | rfl <;> revert hblank <;> decide
    | nil =>
      rw [hgap, List.nil_append] at hhead
      cases hlexeme : q.lexeme with
      | and => exact hq (Or.inl hlexeme)
      | or => exact hq (Or.inr hlexeme)
      | condition cs =>
        have hcs := h.whole q (by simp) cs hlexeme
        obtain ⟨d, tail, rfl, -⟩ := hcs.visible
        rw [hlexeme] at hhead
        cases hhead
        have hsymbol := hcs.head_not_symbol c rfl
        rcases hc with rfl | rfl <;> revert hsymbol <;> decide
      | _ =>
        rw [hlexeme] at hhead
        cases hhead
        revert hc
        decide

/-- A condition that runs into an operator leaves a single character of it behind. -/
theorem scanFrom_short {cs : List Char} {c : Char} (hc : c = '&' ∨ c = '|')
    (h : IsCondition (cs ++ [c])) {rest : List Char} (hrest : c ∉ rest.head?) (source : List Char)
    (fuel : Nat) :
    ∃ e, scanFrom source (fuel + 3) (cs ++ c :: c :: c :: rest) = .error e := by
  obtain ⟨short, htake⟩ := take?_short hc h rest
  obtain ⟨d, tail, hcs, hd, -⟩ := h.visible
  have hblank : isBlank c = false := by rcases hc with rfl | rfl <;> decide
  have hoperator : ∃ l, take? (c :: c :: c :: rest) = some (l, c :: rest) := by
    rcases hc with rfl | rfl
    · exact ⟨and, rfl⟩
    · exact ⟨or, rfl⟩
  obtain ⟨l, hl⟩ := hoperator
  have hlast : ∃ e, scanFrom source (fuel + 1) (c :: rest) = .error e := by
    rw [scanFrom, Text.trimStart_cons_of_not_blank hblank]
    simp only [take?_eq_none hc hrest]
    exact ⟨_, rfl⟩
  obtain ⟨e, he⟩ := hlast
  have hwhole : cs ++ c :: c :: c :: rest = d :: (tail ++ c :: c :: rest) := by
    rw [← List.cons_append, ← hcs, List.append_assoc]
    rfl
  rw [hwhole] at htake ⊢
  rw [scanFrom_lexeme hd htake, scanFrom_lexeme hblank hl, he]
  exact ⟨e, rfl⟩

theorem exists_of_runsInto {p q : Placed} {ps : List Placed} (h : WellPlaced (p :: q :: ps))
    (hruns : RunsInto p q) :
    ∃ cs c rest, (c = '&' ∨ c = '|') ∧ IsCondition (cs ++ [c]) ∧ c ∉ rest.head? ∧
      spread (p :: q :: ps) = p.gap ++ (cs ++ c :: c :: c :: rest) := by
  obtain ⟨hgap, cs, ⟨hq, hp⟩ | ⟨hq, hp⟩⟩ := hruns
  · exact ⟨cs, '&', spread ps, Or.inl rfl, h.whole p List.mem_cons_self _ hp,
      h.tail.head_ne (Or.inl hq) (Or.inl rfl), by simp [spread, hgap, hq, hp, text]⟩
  · exact ⟨cs, '|', spread ps, Or.inr rfl, h.whole p List.mem_cons_self _ hp,
      h.tail.head_ne (Or.inr hq) (Or.inr rfl), by simp [spread, hgap, hq, hp, text]⟩

theorem WellPlaced.scanFrom_error {ps : List Placed} (h : WellPlaced ps)
    (hruns : ¬ ps.IsChain fun p q => ¬ RunsInto p q) (source : List Char) {fuel : Nat}
    (hfuel : (spread ps).length ≤ fuel) : ∃ e, scanFrom source fuel (spread ps) = .error e := by
  induction ps generalizing fuel with
  | nil => exact absurd List.isChain_nil hruns
  | cons p ps ih =>
    have hshorter := length_spread_cons h
    obtain ⟨fuel, rfl⟩ := Nat.exists_eq_add_of_le' (show 1 ≤ fuel by omega)
    by_cases hnext : ∀ q ∈ ps.head?, ¬ RunsInto p q
    · have htail : ¬ ps.IsChain fun p q => ¬ RunsInto p q :=
        fun hchain => hruns (List.isChain_cons.mpr ⟨hnext, hchain⟩)
      obtain ⟨e, he⟩ := ih h.tail htail (show (spread ps).length ≤ fuel by omega)
      rw [h.scanFrom_cons hnext, he]
      exact ⟨e, rfl⟩
    · obtain ⟨q, hq, hpq⟩ : ∃ q ∈ ps.head?, RunsInto p q := by simpa using hnext
      obtain ⟨qs, rfl⟩ := List.head?_eq_some_iff.mp hq
      obtain ⟨cs, c, rest, hc, hcs, hrest, hspread⟩ := exists_of_runsInto h hpq
      have hlength : (cs ++ c :: c :: c :: rest).length ≤ fuel + 1 := by
        rw [hspread, List.length_append] at hfuel
        omega
      simp only [List.length_append, List.length_cons] at hlength
      obtain ⟨fuel, rfl⟩ := Nat.exists_eq_add_of_le' (show 2 ≤ fuel by omega)
      rw [hspread, scanFrom_padding (h.gaps p List.mem_cons_self)]
      exact scanFrom_short hc hcs hrest source fuel

theorem WellPlaced.scan_eq {ps : List Placed} (h : WellPlaced ps)
    (happart : ps.IsChain fun p q => ¬ RunsInto p q) :
    ∃ found, scan (spread ps) = .ok found ∧ plain found = ps.map Placed.lexeme :=
  h.scanFrom_eq happart (spread ps) le_rfl

theorem WellPlaced.scan_error {ps : List Placed} (h : WellPlaced ps)
    (hruns : ¬ ps.IsChain fun p q => ¬ RunsInto p q) : ∃ e, scan (spread ps) = .error e :=
  h.scanFrom_error hruns (spread ps) le_rfl

end Lexeme

end Placeholder.Temporal
