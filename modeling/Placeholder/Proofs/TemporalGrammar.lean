import Mathlib
import Placeholder.Proofs.PlacedLexemes

/-!
# The grammar of temporal expressions

A derivation is a tree of the rules `or := and ('||' and)*`, `and := not ('&&' not)*`,
`not := '!' not | primary` and `primary := '(' or ')' | condition`. Reading accepts a list of lexemes
exactly when a derivation has them as its leaves and opens no more than the permitted number of
negations and parentheses at once; the result is the tree of the derivation.
-/

namespace Placeholder.Temporal

/-! ### Conditions -/

/-- What the text of a condition denotes, by the form of the text. -/
inductive Denotes : List Char → Tree → Prop where
  | cron (spec : List Char) :
      Denotes ("cron:".toList ++ spec) (.cron (String.ofList (Text.trim spec)))
  | nthWeekday {day occurrences : List Char} : ':' ∉ day → ':' ∉ occurrences →
      Denotes ("nth:".toList ++ (day ++ ':' :: occurrences))
        (.nthWeekday (String.ofList day) ((Text.splitOn ',' occurrences).map leadingInt))
  | lastWeekday (day : List Char) :
      Denotes ("last:".toList ++ day) (.lastWeekday (String.ofList day))
  | timeRange {cs : List Char} {start stop : Nat × Nat} :
      takeClockPair? cs = some (start, stop, []) → Denotes cs (.timeRange (String.ofList cs))
  | keyword {cs : List Char} : String.ofList cs ∈ builtInKeywords →
      Denotes cs (.keyword (String.ofList cs))
  | custom {cs : List Char} : ¬ "cron:".toList <+: cs → ¬ "nth:".toList <+: cs →
      ¬ "last:".toList <+: cs → (∀ start stop, takeClockPair? cs ≠ some (start, stop, [])) →
      String.ofList cs ∉ builtInKeywords → Denotes cs (.custom (String.ofList cs))

theorem conditionOf_of_unmarked {cs : List Char} (hcron : ¬ "cron:".toList <+: cs)
    (hnth : ¬ "nth:".toList <+: cs) (hlast : ¬ "last:".toList <+: cs) :
    conditionOf cs =
      match takeClockPair? cs with
      | some (_, _, []) => .ok (.timeRange (String.ofList cs))
      | _ =>
        .ok (if builtInKeywords.contains (String.ofList cs) then .keyword (String.ofList cs)
          else .custom (String.ofList cs)) := by
  have hcron' := (Text.after?_eq_none_iff _ _).mpr hcron
  have hlast' := (Text.after?_eq_none_iff _ _).mpr hlast
  have hnth' : Text.startsWith "nth:".toList cs = false := by
    rw [Bool.eq_false_iff, ne_eq, Text.startsWith_iff]
    exact hnth
  simp only [conditionOf, hcron', hnth', hlast', Bool.false_eq_true, if_false]
  split <;> simp_all

theorem conditionOf_cron (spec : List Char) :
    conditionOf ("cron:".toList ++ spec) = .ok (.cron (String.ofList (Text.trim spec))) := by
  simp only [conditionOf, Text.after?_append]

theorem conditionOf_nth (rest : List Char) :
    conditionOf ("nth:".toList ++ rest) =
      match Text.splitOn ':' rest with
      | [day, occurrences] =>
        .ok (.nthWeekday (String.ofList day) ((Text.splitOn ',' occurrences).map leadingInt))
      | _ => .error (.invalidNthFormat (String.ofList ("nth:".toList ++ rest))) := by
  have hcron : Text.after? "cron:".toList ("nth:".toList ++ rest) = none := by
    rw [Text.after?_eq_none_iff]
    rintro ⟨tail, htail⟩
    exact absurd (List.cons.inj htail).1 (by decide)
  have hnth : Text.startsWith "nth:".toList ("nth:".toList ++ rest) = true := by
    rw [Text.startsWith_iff]
    exact List.prefix_append _ _
  have hsplit : Text.splitOn ':' ("nth:".toList ++ rest) = "nth".toList :: Text.splitOn ':' rest :=
    Text.splitOn_append (show ':' ∉ "nth".toList by decide) rest
  simp only [conditionOf, hcron, hnth, hsplit, if_true]
  obtain ⟨piece, pieces, h⟩ := Text.exists_splitOn ':' rest
  rw [h]
  rcases pieces with _ | ⟨second, _ | ⟨third, pieces⟩⟩ <;> rfl

theorem conditionOf_last (day : List Char) :
    conditionOf ("last:".toList ++ day) = .ok (.lastWeekday (String.ofList day)) := by
  have hcron : Text.after? "cron:".toList ("last:".toList ++ day) = none := by
    rw [Text.after?_eq_none_iff]
    rintro ⟨tail, htail⟩
    exact absurd (List.cons.inj htail).1 (by decide)
  have hnth : Text.startsWith "nth:".toList ("last:".toList ++ day) = false := by
    rw [Bool.eq_false_iff, ne_eq, Text.startsWith_iff]
    rintro ⟨tail, htail⟩
    exact absurd (List.cons.inj htail).1 (by decide)
  simp only [conditionOf, hcron, hnth, Text.after?_append, Bool.false_eq_true, if_false]

theorem conditionOf_sound {cs : List Char} {t : Tree} (h : conditionOf cs = .ok t) :
    Denotes cs t := by
  by_cases hcron : "cron:".toList <+: cs
  · obtain ⟨spec, rfl⟩ := hcron
    rw [conditionOf_cron] at h
    cases h
    exact .cron spec
  by_cases hnth : "nth:".toList <+: cs
  · obtain ⟨rest, rfl⟩ := hnth
    rw [conditionOf_nth] at h
    split at h
    · rename_i day occurrences hsplit
      cases h
      obtain ⟨hday, ⟨-, hnil⟩ | ⟨tail, rfl, htail⟩⟩ := Text.splitOn_eq_cons hsplit
      · cases hnil
      · obtain ⟨hoccurrences, ⟨rfl, -⟩ | ⟨_, -, hmore⟩⟩ := Text.splitOn_eq_cons htail
        · exact .nthWeekday hday hoccurrences
        · obtain ⟨piece, pieces, hsome⟩ := Text.exists_splitOn ':' _
          rw [hsome] at hmore
          cases hmore
    · cases h
  by_cases hlast : "last:".toList <+: cs
  · obtain ⟨day, rfl⟩ := hlast
    rw [conditionOf_last] at h
    cases h
    exact .lastWeekday day
  rw [conditionOf_of_unmarked hcron hnth hlast] at h
  split at h
  · rename_i start stop hpair
    cases h
    exact .timeRange hpair
  · rename_i hpair
    cases h
    split
    · rename_i hkeyword
      exact .keyword (by simpa using hkeyword)
    · rename_i hkeyword
      exact .custom hcron hnth hlast (fun start stop heq => hpair start stop heq)
        (by simpa using hkeyword)

theorem conditionOf_complete {cs : List Char} {t : Tree} (h : Denotes cs t) :
    conditionOf cs = .ok t := by
  cases h with
  | cron spec => exact conditionOf_cron spec
  | @nthWeekday day occurrences hday hoccurrences =>
    rw [conditionOf_nth, Text.splitOn_append hday, Text.splitOn_of_not_mem hoccurrences]
  | lastWeekday day => exact conditionOf_last day
  | timeRange hpair =>
    rw [conditionOf_of_unmarked (not_marked_of_takeClockPair? (by decide) hpair)
      (not_marked_of_takeClockPair? (by decide) hpair)
      (not_marked_of_takeClockPair? (by decide) hpair), hpair]
  | keyword hkeyword =>
    have hcs : cs ∈ builtInKeywords.map String.toList := by
      rw [← String.toList_ofList (l := cs)]
      exact List.mem_map_of_mem hkeyword
    simp only [builtInKeywords, List.map_cons, List.map_nil, List.mem_cons, List.not_mem_nil,
      or_false] at hcs
    rcases hcs with rfl | rfl | rfl | rfl <;> rfl
  | custom hcron hnth hlast hpair hkeyword =>
    rw [conditionOf_of_unmarked hcron hnth hlast]
    split
    · rename_i start stop heq
      exact absurd heq (hpair start stop)
    · rw [if_neg (by simpa using hkeyword)]

/-! ### Derivations -/

mutual

inductive Operand where
  | condition {text : List Char} {tree : Tree} (denotes : Denotes text tree)
  | negation (operand : Operand)
  | group (inner : Disjunction)

inductive Conjunction where
  | last (operand : Operand)
  | and (operand : Operand) (rest : Conjunction)

inductive Disjunction where
  | last (conjunction : Conjunction)
  | or (conjunction : Conjunction) (rest : Disjunction)

end

mutual

def Operand.lexemes : Operand → List Lexeme
  | @Operand.condition text _ _ => [.condition text]
  | .negation o => .not :: o.lexemes
  | .group d => .opening :: (d.lexemes ++ [.closing])

def Conjunction.lexemes : Conjunction → List Lexeme
  | .last o => o.lexemes
  | .and o c => o.lexemes ++ .and :: c.lexemes

def Disjunction.lexemes : Disjunction → List Lexeme
  | .last c => c.lexemes
  | .or c d => c.lexemes ++ .or :: d.lexemes

end

mutual

def Operand.nesting : Operand → Nat
  | .condition _ => 0
  | .negation o => o.nesting + 1
  | .group d => d.nesting + 1

def Conjunction.nesting : Conjunction → Nat
  | .last o => o.nesting
  | .and o c => max o.nesting c.nesting

def Disjunction.nesting : Disjunction → Nat
  | .last c => c.nesting
  | .or c d => max c.nesting d.nesting

end

mutual

/-- The tree of a derivation: a chain of one operand is the operand. -/
def Operand.tree : Operand → Tree
  | @Operand.condition _ tree _ => tree
  | .negation o => .not o.tree
  | .group d => .ofAny d.trees

def Conjunction.trees : Conjunction → List Tree
  | .last o => [o.tree]
  | .and o c => o.tree :: c.trees

def Disjunction.trees : Disjunction → List Tree
  | .last c => [.ofAll c.trees]
  | .or c d => .ofAll c.trees :: d.trees

end

def Conjunction.tree (c : Conjunction) : Tree :=
  .ofAll c.trees

def Disjunction.tree (d : Disjunction) : Tree :=
  .ofAny d.trees

/-- Lexemes that neither begin nor end with an operator. -/
structure OperandEnds (ls : List Lexeme) : Prop where
  ne_nil : ls ≠ []
  head : ∀ l ∈ ls.head?, ¬ l.IsOperator
  last : ∀ l ∈ ls.getLast?, ¬ l.IsOperator

theorem operandEnds_singleton {l : Lexeme} (h : ¬ l.IsOperator) : OperandEnds [l] :=
  ⟨List.cons_ne_nil l [], by simpa using h, by simpa using h⟩

theorem OperandEnds.cons {ls : List Lexeme} (h : OperandEnds ls) {m : Lexeme}
    (hm : ¬ m.IsOperator) : OperandEnds (m :: ls) where
  ne_nil := List.cons_ne_nil m ls
  head := by simpa using hm
  last := by
    rw [List.getLast?_cons_of_ne_nil h.ne_nil]
    exact h.last

theorem OperandEnds.append {ls ms : List Lexeme} (hls : OperandEnds ls) (hms : OperandEnds ms)
    (m : Lexeme) : OperandEnds (ls ++ m :: ms) where
  ne_nil := by simp
  head := by
    rw [List.head?_append_of_ne_nil _ hls.ne_nil]
    exact hls.head
  last := by
    rw [List.getLast?_append_of_ne_nil _ (List.cons_ne_nil m ms),
      List.getLast?_cons_of_ne_nil hms.ne_nil]
    exact hms.last

mutual

theorem Operand.operandEnds (o : Operand) : OperandEnds o.lexemes := by
  match o with
  | .condition _ => exact operandEnds_singleton (by rintro (h | h) <;> cases h)
  | .negation o => exact o.operandEnds.cons (by decide)
  | .group d =>
    refine ⟨List.cons_ne_nil _ _, ?_, ?_⟩
    · intro l hl
      cases hl
      decide
    · intro l hl
      rw [Operand.lexemes, ← List.cons_append, List.getLast?_concat] at hl
      cases hl
      decide

theorem Conjunction.operandEnds (c : Conjunction) : OperandEnds c.lexemes := by
  match c with
  | .last o => exact o.operandEnds
  | .and o c => exact o.operandEnds.append c.operandEnds .and

theorem Disjunction.operandEnds (d : Disjunction) : OperandEnds d.lexemes := by
  match d with
  | .last c => exact c.operandEnds
  | .or c d => exact c.operandEnds.append d.operandEnds .or

end

theorem isChain_symbol {m : Lexeme} (hm : ∀ cs, m ≠ .condition cs) (hoperator : ¬ m.IsOperator)
    {ls : List Lexeme} (h : ls.IsChain Lexeme.Follows) : (m :: ls).IsChain Lexeme.Follows :=
  List.isChain_cons.mpr
    ⟨fun _ _ => ⟨fun cs hcs => absurd hcs (hm cs), fun hm => absurd hm hoperator⟩, h⟩

theorem isChain_operator {m : Lexeme} (hm : m.IsOperator) {ls ms : List Lexeme}
    (hls : ls.IsChain Lexeme.Follows) (hms : ms.IsChain Lexeme.Follows)
    (hlast : OperandEnds ls) (hhead : OperandEnds ms) :
    (ls ++ m :: ms).IsChain Lexeme.Follows := by
  have hsymbol : ∀ cs, m ≠ .condition cs := by
    rintro cs rfl
    rcases hm with h | h <;> cases h
  refine List.isChain_append.mpr ⟨hls, List.isChain_cons.mpr ⟨fun y hy => ?_, hms⟩, ?_⟩
  · exact ⟨fun cs hcs => absurd hcs (hsymbol cs), fun _ => hhead.head y hy⟩
  · intro x hx y hy
    cases hy
    exact ⟨fun _ _ => hm.imp_right Or.inl, fun hoperator => absurd hoperator (hlast.last x hx)⟩

theorem isChain_group {ls : List Lexeme} (h : ls.IsChain Lexeme.Follows) (hends : OperandEnds ls) :
    (.opening :: (ls ++ [.closing])).IsChain Lexeme.Follows := by
  refine isChain_symbol (fun _ h => by cases h) (by decide) ?_
  refine List.isChain_append.mpr ⟨h, List.isChain_singleton _, fun x hx y hy => ?_⟩
  cases hy
  exact ⟨fun _ _ => Or.inr (Or.inr rfl), fun hoperator => absurd hoperator (hends.last x hx)⟩

mutual

theorem Operand.isChain_lexemes (o : Operand) : o.lexemes.IsChain Lexeme.Follows := by
  match o with
  | .condition _ => exact List.isChain_singleton _
  | .negation o =>
    exact isChain_symbol (fun _ h => by cases h) (by decide) o.isChain_lexemes
  | .group d => exact isChain_group d.isChain_lexemes d.operandEnds

theorem Conjunction.isChain_lexemes (c : Conjunction) : c.lexemes.IsChain Lexeme.Follows := by
  match c with
  | .last o => exact o.isChain_lexemes
  | .and o c =>
    exact isChain_operator (Or.inl rfl) o.isChain_lexemes c.isChain_lexemes o.operandEnds
      c.operandEnds

theorem Disjunction.isChain_lexemes (d : Disjunction) : d.lexemes.IsChain Lexeme.Follows := by
  match d with
  | .last c => exact c.isChain_lexemes
  | .or c d =>
    exact isChain_operator (Or.inr rfl) c.isChain_lexemes d.isChain_lexemes c.operandEnds
      d.operandEnds

end

/-! ### What is read has a derivation -/

/-- What a reader reads are the lexemes of some object with the tree that it returns. -/
def ReadsOnly {α : Type} (read : List Located → Phrase) (lexemes : α → List Lexeme)
    (tree : α → Tree) (Admitted : α → Prop) : Prop :=
  ∀ ls t rest, read ls = .ok (t, rest) →
    ∃ a, Admitted a ∧ tree a = t ∧ plain ls = lexemes a ++ plain rest

section Chain

variable {α : Type} {read : List Located → Phrase} {lexemes : α → List Lexeme} {tree : α → Tree}
  {Admitted : α → Prop}

theorem operands_readsOnly (h : ReadsOnly read lexemes tree Admitted) {operator : Lexeme}
    {fuel : Nat} {ls rest : List Located} {ts : List Tree}
    (hread : operands operator read fuel ls = .ok (ts, rest)) :
    ∃ as : List α, (∀ a ∈ as, Admitted a) ∧ as.map tree = ts ∧
      plain ls = as.flatMap (fun a => operator :: lexemes a) ++ plain rest := by
  induction fuel generalizing ls ts with
  | zero =>
    cases hread
    exact ⟨[], fun a ha => absurd ha List.not_mem_nil, rfl, rfl⟩
  | succ fuel ih =>
    cases ls with
    | nil =>
      cases hread
      exact ⟨[], fun a ha => absurd ha List.not_mem_nil, rfl, rfl⟩
    | cons l ls =>
      rw [operands] at hread
      split at hread
      · rename_i hoperator
        obtain ⟨⟨t, ls'⟩, hfirst, hread⟩ := exists_of_bind_eq_ok hread
        obtain ⟨⟨us, ls''⟩, hothers, hread⟩ := exists_of_bind_eq_ok hread
        cases hread
        obtain ⟨a, ha, htree, hls⟩ := h ls t ls' hfirst
        obtain ⟨as, has, htrees, hls'⟩ := ih hothers
        refine ⟨a :: as, List.forall_mem_cons.mpr ⟨ha, has⟩, by rw [List.map_cons, htree, htrees], ?_⟩
        have hhead : plain (l :: ls) = operator :: plain ls := by
          rw [← hoperator]
          rfl
        rw [hhead, hls, hls', List.flatMap_cons, List.cons_append, List.cons_append,
          List.append_assoc]
      · cases hread
        exact ⟨[], fun a ha => absurd ha List.not_mem_nil, rfl, rfl⟩

theorem chain_readsOnly (h : ReadsOnly read lexemes tree Admitted) {operator : Lexeme}
    {join : List Tree → Tree} {ls rest : List Located} {t : Tree}
    (hread : chain operator join read ls = .ok (t, rest)) :
    ∃ (a : α) (as : List α), (∀ b ∈ a :: as, Admitted b) ∧ join ((a :: as).map tree) = t ∧
      plain ls = lexemes a ++ as.flatMap (fun b => operator :: lexemes b) ++ plain rest := by
  obtain ⟨⟨u, ls'⟩, hfirst, hread⟩ := exists_of_bind_eq_ok hread
  obtain ⟨⟨us, ls''⟩, hothers, hread⟩ := exists_of_bind_eq_ok hread
  cases hread
  obtain ⟨a, ha, rfl, hls⟩ := h ls u ls' hfirst
  obtain ⟨as, has, rfl, hls'⟩ := operands_readsOnly h hothers
  refine ⟨a, as, List.forall_mem_cons.mpr ⟨ha, has⟩, rfl, ?_⟩
  rw [hls, hls', List.append_assoc]

end Chain

def Conjunction.ofList : Operand → List Operand → Conjunction
  | o, [] => .last o
  | o, p :: ps => .and o (ofList p ps)

def Disjunction.ofList : Conjunction → List Conjunction → Disjunction
  | c, [] => .last c
  | c, d :: ds => .or c (ofList d ds)

theorem Conjunction.lexemes_ofList (o : Operand) (os : List Operand) :
    (ofList o os).lexemes = o.lexemes ++ os.flatMap fun p => .and :: p.lexemes := by
  induction os generalizing o with
  | nil => simp [ofList, lexemes]
  | cons p os ih => simp [ofList, lexemes, ih]

theorem Disjunction.lexemes_ofList (c : Conjunction) (cs : List Conjunction) :
    (ofList c cs).lexemes = c.lexemes ++ cs.flatMap fun d => .or :: d.lexemes := by
  induction cs generalizing c with
  | nil => simp [ofList, lexemes]
  | cons d cs ih => simp [ofList, lexemes, ih]

theorem Conjunction.trees_ofList (o : Operand) (os : List Operand) :
    (ofList o os).trees = (o :: os).map Operand.tree := by
  induction os generalizing o with
  | nil => rfl
  | cons p os ih =>
    rw [ofList, trees, ih]
    rfl

theorem Disjunction.trees_ofList (c : Conjunction) (cs : List Conjunction) :
    (ofList c cs).trees = (c :: cs).map Conjunction.tree := by
  induction cs generalizing c with
  | nil => rfl
  | cons d cs ih =>
    rw [ofList, trees, ih]
    rfl

theorem Conjunction.nesting_ofList_le {n : Nat} {o : Operand} {os : List Operand} :
    (ofList o os).nesting ≤ n ↔ ∀ p ∈ o :: os, p.nesting ≤ n := by
  induction os generalizing o with
  | nil => simp [ofList, nesting]
  | cons q os ih =>
    rw [ofList, nesting, max_le_iff, ih]
    exact (List.forall_mem_cons (p := fun q : Operand => q.nesting ≤ n)).symm

theorem Disjunction.nesting_ofList_le {n : Nat} {c : Conjunction} {cs : List Conjunction} :
    (ofList c cs).nesting ≤ n ↔ ∀ d ∈ c :: cs, d.nesting ≤ n := by
  induction cs generalizing c with
  | nil => simp [ofList, nesting]
  | cons d cs ih =>
    rw [ofList, nesting, max_le_iff, ih]
    exact (List.forall_mem_cons (p := fun d : Conjunction => d.nesting ≤ n)).symm

theorem conjunction_readsOnly {read : List Located → Phrase} {n : Nat}
    (h : ReadsOnly read Operand.lexemes Operand.tree (·.nesting ≤ n)) :
    ReadsOnly (conjunction read) Conjunction.lexemes Conjunction.tree (·.nesting ≤ n) := by
  intro ls t rest hread
  obtain ⟨o, os, hnesting, htree, hls⟩ := chain_readsOnly h hread
  refine ⟨.ofList o os, Conjunction.nesting_ofList_le.mpr hnesting, ?_, ?_⟩
  · rw [Conjunction.tree, Conjunction.trees_ofList, htree]
  · rw [hls, Conjunction.lexemes_ofList]

theorem disjunction_readsOnly {read : List Located → Phrase} {n : Nat}
    (h : ReadsOnly read Operand.lexemes Operand.tree (·.nesting ≤ n)) :
    ReadsOnly (disjunction read) Disjunction.lexemes Disjunction.tree (·.nesting ≤ n) := by
  intro ls t rest hread
  obtain ⟨c, cs, hnesting, htree, hls⟩ := chain_readsOnly (conjunction_readsOnly h) hread
  refine ⟨.ofList c cs, Disjunction.nesting_ofList_le.mpr hnesting, ?_, ?_⟩
  · rw [Disjunction.tree, Disjunction.trees_ofList, htree]
  · rw [hls, Disjunction.lexemes_ofList]

theorem closeGroup_eq_ok {t u : Tree} {ls rest : List Located}
    (h : closeGroup t ls = .ok (u, rest)) : u = t ∧ plain ls = .closing :: plain rest := by
  unfold closeGroup at h
  split at h
  · cases h
    exact ⟨rfl, rfl⟩
  · cases h

theorem condition_readsOnly {text : List Char} {offset : Nat} {ls rest : List Located} {t : Tree}
    {n : Nat} (h : (conditionOf text).map (fun t => (t, ls)) = .ok (t, rest)) :
    ∃ o : Operand, o.nesting ≤ n ∧ o.tree = t ∧
      plain (⟨.condition text, offset⟩ :: ls) = o.lexemes ++ plain rest := by
  cases hcondition : conditionOf text with
  | error e =>
    rw [hcondition] at h
    cases h
  | ok u =>
    rw [hcondition] at h
    cases h
    exact ⟨.condition (conditionOf_sound hcondition), Nat.zero_le n, rfl, rfl⟩

theorem operand_readsOnly (size budget : Nat) :
    ReadsOnly (operand size budget) Operand.lexemes Operand.tree (·.nesting ≤ budget) := by
  induction budget with
  | zero =>
    intro ls t rest hread
    rcases ls with _ | ⟨⟨lexeme, offset⟩, ls⟩
    · cases hread
    · cases lexeme with
      | condition text => exact condition_readsOnly hread
      | _ => cases hread
  | succ budget ih =>
    intro ls t rest hread
    rcases ls with _ | ⟨⟨lexeme, offset⟩, ls⟩
    · cases hread
    · cases lexeme with
      | condition text => exact condition_readsOnly hread
      | not =>
        obtain ⟨⟨u, ls'⟩, hinner, hread⟩ := exists_of_bind_eq_ok hread
        cases hread
        obtain ⟨o, hnesting, rfl, hls⟩ := ih ls u rest hinner
        refine ⟨.negation o, Nat.succ_le_succ hnesting, rfl, ?_⟩
        exact congrArg (Lexeme.not :: ·) hls
      | opening =>
        obtain ⟨⟨u, ls'⟩, hinner, hread⟩ := exists_of_bind_eq_ok hread
        obtain ⟨rfl, hclosing⟩ := closeGroup_eq_ok hread
        obtain ⟨d, hnesting, rfl, hls⟩ := disjunction_readsOnly ih ls _ _ hinner
        refine ⟨.group d, Nat.succ_le_succ hnesting, rfl, ?_⟩
        have hinside : plain ls = d.lexemes ++ [.closing] ++ plain rest := by
          rw [hls, hclosing, List.append_assoc]
          rfl
        exact congrArg (Lexeme.opening :: ·) hinside
      | _ => cases hread

/-! ### What has a derivation is read -/

/-- A list does not go on with this operator. -/
def EndsBefore (operator : Lexeme) (ls : List Located) : Prop :=
  ∀ l ∈ ls.head?, l.lexeme ≠ operator

theorem endsBefore_nil (operator : Lexeme) : EndsBefore operator [] := by
  intro l hl
  cases hl

theorem endsBefore_cons {operator lexeme : Lexeme} (h : lexeme ≠ operator) {offset : Nat}
    {ls : List Located} : EndsBefore operator (⟨lexeme, offset⟩ :: ls) := by
  intro l hl
  cases hl
  exact h

/-- A reader reads a first operand, and from there on the operands are read with any fuel for the
rest of the list. -/
def ReadsChain (operator : Lexeme) (read : List Located → Phrase) (ls : List Located)
    (ts : List Tree) (rest : List Located) : Prop :=
  ∃ t us ls', ts = t :: us ∧ read ls = .ok (t, ls') ∧ ls'.length ≤ ls.length ∧
    ∀ fuel, ls'.length ≤ fuel → operands operator read fuel ls' = .ok (us, rest)

section ReadsChain

variable {operator : Lexeme} {read : List Located → Phrase} {ls rest : List Located}

theorem operands_of_endsBefore (h : EndsBefore operator ls) (fuel : Nat) :
    operands operator read fuel ls = .ok ([], ls) := by
  cases fuel with
  | zero => rfl
  | succ fuel =>
    cases ls with
    | nil => rfl
    | cons l ls => exact if_neg (h l rfl)

theorem readsChain_last {t : Tree} (hread : read ls = .ok (t, rest))
    (hlen : rest.length ≤ ls.length) (hrest : EndsBefore operator rest) :
    ReadsChain operator read ls [t] rest :=
  ⟨t, [], rest, rfl, hread, hlen, fun fuel _ => operands_of_endsBefore hrest fuel⟩

theorem readsChain_cons {t : Tree} {ts : List Tree} {offset : Nat} {ls' : List Located}
    (hread : read ls = .ok (t, ⟨operator, offset⟩ :: ls')) (hlen : ls'.length < ls.length)
    (h : ReadsChain operator read ls' ts rest) : ReadsChain operator read ls (t :: ts) rest := by
  obtain ⟨u, us, ls'', rfl, hfirst, hshort, hothers⟩ := h
  refine ⟨t, u :: us, _, rfl, hread, hlen, fun fuel hfuel => ?_⟩
  rw [List.length_cons] at hfuel
  obtain ⟨fuel, rfl⟩ := Nat.exists_eq_add_of_le' (by omega : 1 ≤ fuel)
  have hsteps := hothers fuel (by omega)
  rw [operands, if_pos rfl, hfirst]
  simp only [bind, Except.bind, hsteps]

theorem chain_of_readsChain {ts : List Tree} (h : ReadsChain operator read ls ts rest)
    (join : List Tree → Tree) : chain operator join read ls = .ok (join ts, rest) := by
  obtain ⟨t, us, ls', rfl, hfirst, -, hothers⟩ := h
  have hsteps := hothers ls'.length le_rfl
  simp only [chain, hfirst, bind, Except.bind, hsteps]

end ReadsChain

theorem exists_of_plain_eq_append {ls : List Located} {a b : List Lexeme}
    (h : plain ls = a ++ b) : ∃ front back, ls = front ++ back ∧ plain front = a ∧ plain back = b :=
  List.map_eq_append_iff.mp h

theorem exists_of_plain_eq_cons {ls : List Located} {lexeme : Lexeme} {b : List Lexeme}
    (h : plain ls = lexeme :: b) : ∃ offset back, ls = ⟨lexeme, offset⟩ :: back ∧ plain back = b := by
  obtain ⟨⟨found, offset⟩, back, rfl, rfl, hback⟩ := List.map_eq_cons_iff.mp h
  exact ⟨offset, back, rfl, hback⟩

mutual

/-- A derivation that opens no more than the budget is read whole. -/
theorem operand_reads (size : Nat) (o : Operand) {budget : Nat} (h : o.nesting ≤ budget)
    {front : List Located} (hfront : plain front = o.lexemes) (rest : List Located) :
    operand size budget (front ++ rest) = .ok (o.tree, rest) := by
  match o with
  | @Operand.condition text tree denotes =>
    obtain ⟨offset, back, rfl, hback⟩ := exists_of_plain_eq_cons hfront
    obtain rfl : back = [] := List.map_eq_nil_iff.mp hback
    have hcondition := conditionOf_complete denotes
    cases budget <;>
    · simp only [List.cons_append, List.nil_append, operand, hcondition]
      rfl
  | .negation o =>
    obtain ⟨offset, back, rfl, hback⟩ := exists_of_plain_eq_cons hfront
    obtain ⟨budget, rfl⟩ := Nat.exists_eq_add_of_le' (Nat.le_of_add_left_le h : 1 ≤ budget)
    have hinner := operand_reads size o (Nat.le_of_succ_le_succ h) hback rest
    simp only [List.cons_append, operand, hinner, bind, Except.bind]
    rfl
  | .group d =>
    obtain ⟨offset, back, rfl, hback⟩ := exists_of_plain_eq_cons hfront
    obtain ⟨inside, tail, rfl, hinside, htail⟩ := exists_of_plain_eq_append hback
    obtain ⟨closed, back, rfl, hnil⟩ := exists_of_plain_eq_cons htail
    obtain rfl : back = [] := List.map_eq_nil_iff.mp hnil
    obtain ⟨budget, rfl⟩ := Nat.exists_eq_add_of_le' (Nat.le_of_add_left_le h : 1 ≤ budget)
    have hinner := disjunction_reads size d (Nat.le_of_succ_le_succ h) hinside
      (⟨.closing, closed⟩ :: rest) (endsBefore_cons (by decide)) (endsBefore_cons (by decide))
    have hchain := chain_of_readsChain hinner Tree.ofAny
    simp only [List.cons_append, List.append_assoc, List.nil_append, operand, bind, Except.bind,
      disjunction, hchain]
    rfl

theorem conjunction_reads (size : Nat) (c : Conjunction) {budget : Nat} (h : c.nesting ≤ budget)
    {front : List Located} (hfront : plain front = c.lexemes) (rest : List Located)
    (hrest : EndsBefore .and rest) :
    ReadsChain .and (operand size budget) (front ++ rest) c.trees rest := by
  match c with
  | .last o =>
    have hfirst := operand_reads size o h hfront rest
    exact readsChain_last hfirst (by simp) hrest
  | .and o c =>
    obtain ⟨first, back, rfl, hfirst, hback⟩ := exists_of_plain_eq_append hfront
    obtain ⟨offset, others, rfl, hothers⟩ := exists_of_plain_eq_cons hback
    have hnesting := max_le_iff.mp h
    have hread := operand_reads size o hnesting.1 hfirst (⟨.and, offset⟩ :: (others ++ rest))
    have hchain := conjunction_reads size c hnesting.2 hothers rest hrest
    rw [List.append_assoc, List.cons_append]
    exact readsChain_cons hread (by simp; omega) hchain

theorem disjunction_reads (size : Nat) (d : Disjunction) {budget : Nat} (h : d.nesting ≤ budget)
    {front : List Located} (hfront : plain front = d.lexemes) (rest : List Located)
    (hand : EndsBefore .and rest) (hor : EndsBefore .or rest) :
    ReadsChain .or (conjunction (operand size budget)) (front ++ rest) d.trees rest := by
  match d with
  | .last c =>
    have hfirst := chain_of_readsChain (conjunction_reads size c h hfront rest hand) Tree.ofAll
    exact readsChain_last hfirst (by simp) hor
  | .or c d =>
    obtain ⟨first, back, rfl, hfirst, hback⟩ := exists_of_plain_eq_append hfront
    obtain ⟨offset, others, rfl, hothers⟩ := exists_of_plain_eq_cons hback
    have hnesting := max_le_iff.mp h
    have hread := chain_of_readsChain (conjunction_reads size c hnesting.1 hfirst
      (⟨.or, offset⟩ :: (others ++ rest)) (endsBefore_cons (by decide))) Tree.ofAll
    have hchain := disjunction_reads size d hnesting.2 hothers rest hand hor
    rw [List.append_assoc, List.cons_append]
    exact readsChain_cons hread (by simp; omega) hchain

end

/-! ### Whole expressions -/

theorem treeOf_eq_ok {size : Nat} {ls : List Located} {t : Tree} (h : treeOf size ls = .ok t) :
    ∃ d : Disjunction, d.lexemes = plain ls ∧ d.nesting ≤ maxNesting ∧ d.tree = t := by
  obtain ⟨⟨u, rest⟩, hread, hend⟩ := exists_of_bind_eq_ok h
  cases rest with
  | cons l rest => cases hend
  | nil =>
    cases hend
    obtain ⟨d, hnesting, htree, hls⟩ :=
      disjunction_readsOnly (operand_readsOnly size maxNesting) ls _ _ hread
    refine ⟨d, ?_, hnesting, htree⟩
    rw [hls]
    exact (List.append_nil d.lexemes).symm

theorem treeOf_lexemes (size : Nat) {d : Disjunction} {ls : List Located}
    (hls : d.lexemes = plain ls) (hnesting : d.nesting ≤ maxNesting) :
    treeOf size ls = .ok d.tree := by
  have hreads := disjunction_reads size d hnesting hls.symm [] (endsBefore_nil _) (endsBefore_nil _)
  have hchain := chain_of_readsChain hreads Tree.ofAny
  rw [List.append_nil] at hchain
  simp only [treeOf, disjunction, hchain, bind, Except.bind]
  rfl

/-- Reading accepts the lexemes of a derivation within the nesting limit, and nothing else. -/
theorem Tree.read_eq_ok_iff {expression : String} (hblank : Text.trim expression.toList ≠ [])
    {ls : List Located} (hscan : Lexeme.scan (Text.trim expression.toList) = .ok ls) (t : Tree) :
    Tree.read expression = .ok t ↔
      ∃ d : Disjunction, d.lexemes = plain ls ∧ d.nesting ≤ maxNesting ∧ d.tree = t := by
  have hread : Tree.read expression = treeOf (Text.trim expression.toList).length ls := by
    have hempty : (Text.trim expression.toList).isEmpty = false := List.isEmpty_eq_false_iff.mpr hblank
    simp only [Tree.read, hempty, hscan, bind, Except.bind, Bool.false_eq_true, if_false]
  rw [hread]
  constructor
  · exact treeOf_eq_ok
  · rintro ⟨d, hls, hnesting, rfl⟩
    exact treeOf_lexemes _ hls hnesting

end Placeholder.Temporal
