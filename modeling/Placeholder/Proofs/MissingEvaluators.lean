import Mathlib
import Placeholder.Proofs.DailyRanges
import Placeholder.Proofs.KeptTree
import Placeholder.Proofs.SequentialLogic

/-!
# Missing evaluators

Three parts of the program look at the text of a condition: the reader that makes a leaf of it, the
evaluation of the leaf, and the test whether it needs a predicate of the host. They agree on every
text that the scanner can produce. So the missing evaluators of an expression are the names of its
custom conditions without a predicate, each once, and evaluation asks for no other predicate.
-/

namespace Placeholder.Temporal

open Calendar

/-! ### Time ranges -/

/-- A text of two times names a range. -/
theorem exists_read_of_takeClockPair? {cs : List Char} {start stop : Nat × Nat}
    (h : takeClockPair? cs = some (start, stop, [])) :
    ∃ r, TimeRange.read (String.ofList cs) = .ok r := by
  have htrim : Text.trim (String.ofList cs).toList = cs := by
    rw [String.toList_ofList]
    cases cs with
    | nil => cases h
    | cons c cs =>
      have hc := Text.not_blank_of_isDigit (isDigit_of_takeClockPair? h)
      exact (endsVisible_of_takeClockPair? h).trimmed_cons hc
  obtain ⟨front, back, hfront, hback, hcs⟩ := takeClockPair?_eq_some_iff.mp h
  have hwritten := TimeRange.Written.between hfront hback
  rw [← hcs, ← htrim] at hwritten
  exact ⟨_, TimeRange.read_of_written hwritten⟩

theorem mem_of_takeClockPair? {cs : List Char} {start stop : Nat × Nat}
    (h : takeClockPair? cs = some (start, stop, [])) : ':' ∈ cs ∧ '-' ∈ cs := by
  unfold takeClockPair? at h
  split at h
  · rename_i hfirst
    obtain ⟨digits, a, b, -, -, -, -, rfl⟩ := exists_of_takeClock? hfirst
    simp
  · cases h

/-! ### Three views of a condition -/

def Tree.customName? : Tree → Option String
  | .custom name => some name
  | _ => none

def Tree.customNames (n : Tree) : List String :=
  n.leaves.filterMap customName?

/-- The failures of conditions whose text can be read, but names no schedule or no day. -/
inductive NamesNothing : Failure → Prop where
  | cron (spec : String) (fault : CronFault) : NamesNothing (.grammar (.invalidCron spec fault))
  | day (day : String) : NamesNothing (.grammar (.invalidDay day))
  | occurrence (n : Int64) : NamesNothing (.grammar (.invalidOccurrence n))

theorem Denotes.isLeaf {cs : List Char} {leaf : Tree} (h : Denotes cs leaf) : leaf.IsLeaf := by
  cases h <;> exact trivial

theorem isSelfEvaluating_iff (cs : List Char) :
    Expression.isSelfEvaluating (String.ofList cs) = true ↔
      String.ofList cs ∈ builtInKeywords ∨ "cron:".toList <+: cs ∨ "nth:".toList <+: cs ∨
        "last:".toList <+: cs ∨ ':' ∈ cs ∧ '-' ∈ cs := by
  simp only [Expression.isSelfEvaluating, String.toList_ofList, Bool.or_eq_true, Bool.and_eq_true,
    List.contains_iff_mem, Text.startsWith_iff, or_assoc]

theorem not_mem_colon_of_name {c : Char} {cs : List Char} (hc : Text.isNameStart c = true)
    (hcs : ∀ d ∈ cs, Text.isNamePart d = true) : ':' ∉ c :: cs := by
  intro hcolon
  have hname : Text.isNamePart ':' = true := by
    rcases List.mem_cons.mp hcolon with rfl | hmem
    · exact Lexeme.isNamePart_of_isNameStart hc
    · exact hcs ':' hmem
  revert hname
  decide

/-- The test by the look of the text finds exactly the conditions that are not custom. -/
theorem customName?_of_denotes {cs : List Char} {leaf : Tree} (h : Denotes cs leaf)
    (hcs : Lexeme.IsCondition cs) :
    leaf.customName? =
      if Expression.isSelfEvaluating (String.ofList cs) then none else some (String.ofList cs) := by
  have hself := isSelfEvaluating_iff cs
  cases h with
  | cron spec =>
    rw [if_pos (hself.mpr (Or.inr (Or.inl (List.prefix_append _ _))))]
    rfl
  | nthWeekday hday hoccurrences =>
    rw [if_pos (hself.mpr (Or.inr (Or.inr (Or.inl (List.prefix_append _ _)))))]
    rfl
  | lastWeekday day =>
    rw [if_pos (hself.mpr (Or.inr (Or.inr (Or.inr (Or.inl (List.prefix_append _ _))))))]
    rfl
  | timeRange hpair =>
    rw [if_pos (hself.mpr (Or.inr (Or.inr (Or.inr (Or.inr (mem_of_takeClockPair? hpair))))))]
    rfl
  | keyword hkeyword =>
    rw [if_pos (hself.mpr (Or.inl hkeyword))]
    rfl
  | custom hcron hnth hlast hpair hkeyword =>
    have hcolon : ':' ∉ cs := by
      cases hcs with
      | cron _ _ => exact absurd (List.prefix_append _ _) hcron
      | word hword _ => exact (not_or.mpr ⟨hnth, hlast⟩ hword).elim
      | @clocks _ start stop hclocks => exact absurd hclocks (hpair start stop)
      | name hc hparts => exact not_mem_colon_of_name hc hparts
    rw [if_neg]
    · rfl
    · rw [hself]
      simp only [hkeyword, hcron, hnth, hlast, hcolon, false_and, or_self, not_false_eq_true]

theorem builtIn?_of_mem {name : String} (h : name ∈ builtInKeywords) :
    ∃ f, builtIn? name = some f := by
  simp only [builtInKeywords, List.mem_cons, List.not_mem_nil, or_false] at h
  rcases h with rfl | rfl | rfl | rfl <;> exact ⟨_, rfl⟩

section

variable {es : Entries Evaluator} {t : DateTime}

theorem namesNothing_of_isNthWeekday {day : String} {n : Int64} {e : GrammarError}
    (h : isNthWeekday day n t = .error e) : NamesNothing (.grammar e) := by
  rw [isNthWeekday] at h
  cases hday : weekdayNumber day with
  | error e' =>
    rw [hday] at h
    cases h
    unfold weekdayNumber at hday
    dsimp only at hday
    split at hday
    · cases hday
    · cases hday
      exact .day _
  | ok target =>
    rw [hday] at h
    cases hn : checkOccurrence n with
    | error e' =>
      rw [hn] at h
      cases h
      unfold checkOccurrence at hn
      split at hn
      · cases hn
      · cases hn
        exact .occurrence n
    | ok _ =>
      rw [hn] at h
      cases h

theorem namesNothing_of_isAnyNthWeekday {day : String} {ns : List Int64} {e : GrammarError}
    (h : isAnyNthWeekday day ns t = .error e) : NamesNothing (.grammar e) := by
  induction ns with
  | nil => cases h
  | cons n ns ih =>
    rw [isAnyNthWeekday] at h
    cases hn : isNthWeekday day n t with
    | error e' =>
      rw [hn] at h
      cases h
      exact namesNothing_of_isNthWeekday hn
    | ok b =>
      rw [hn] at h
      cases b with
      | true => cases h
      | false => exact ih h

theorem exists_of_orMalformed {α : Type} {r : Except GrammarError α} {e : Failure}
    (h : Tree.orMalformed r = .error e) : ∃ g, r = .error g ∧ e = .grammar g := by
  cases r with
  | ok a => cases h
  | error g =>
    cases h
    exact ⟨g, rfl, rfl⟩

/-- How a condition fails that was read from a text. -/
theorem failure_of_denotes {cs : List Char} {leaf : Tree} (h : Denotes cs leaf) {e : Failure}
    (he : leaf.holds es t = .error e) :
    NamesNothing e ∨ ∃ name, leaf.customName? = some name ∧ es.contains name = false ∧
      e = .temporal (.missingEvaluator name) := by
  cases h with
  | cron spec =>
    rw [Tree.holds] at he
    cases hread : Cron.read (String.ofList (Text.trim spec)) with
    | ok c =>
      rw [hread] at he
      cases he
    | error g =>
      rw [hread] at he
      cases he
      unfold Cron.read at hread
      dsimp only at hread
      split at hread
      · cases hread
      · cases hread
        exact Or.inl (.cron _ _)
  | nthWeekday hday hoccurrences =>
    obtain ⟨g, hg, rfl⟩ := exists_of_orMalformed he
    exact Or.inl (namesNothing_of_isAnyNthWeekday hg)
  | lastWeekday day =>
    obtain ⟨g, hg, rfl⟩ := exists_of_orMalformed he
    exact Or.inl (namesNothing_of_isNthWeekday hg)
  | timeRange hpair =>
    obtain ⟨r, hr⟩ := exists_read_of_takeClockPair? hpair
    rw [Tree.holds, hr] at he
    cases he
  | keyword hkeyword =>
    obtain ⟨f, hf⟩ := builtIn?_of_mem hkeyword
    rw [Tree.holds, hf] at he
    cases he
  | custom _ _ _ _ _ =>
    right
    refine ⟨_, rfl, ?_⟩
    rw [Tree.holds] at he
    cases hget : es.get? (String.ofList cs) with
    | some f =>
      rw [hget] at he
      cases he
    | none =>
      rw [hget] at he
      cases he
      rw [Entries.contains, hget]
      exact ⟨rfl, rfl⟩

end

/-! ### Conditions in their order -/

namespace Lexeme

def conditionText? : Lexeme → Option (List Char)
  | condition cs => some cs
  | _ => none

def conditionTexts (ls : List Lexeme) : List (List Char) :=
  ls.filterMap conditionText?

theorem conditionTexts_append (a b : List Lexeme) :
    conditionTexts (a ++ b) = conditionTexts a ++ conditionTexts b :=
  List.filterMap_append

theorem isCondition_of_scanFrom {fuel : Nat} {source cs : List Char} {ls : List Located}
    (h : scanFrom source fuel cs = .ok ls) :
    ∀ text ∈ conditionTexts (plain ls), IsCondition text := by
  induction fuel generalizing cs ls with
  | zero =>
    cases h
    exact List.forall_mem_nil _
  | succ fuel ih =>
    rw [scanFrom] at h
    split at h
    · cases h
      exact List.forall_mem_nil _
    · dsimp only at h
      split at h
      · rename_i lexeme rest htake
        cases hscan : scanFrom source fuel rest with
        | error e =>
          rw [hscan] at h
          cases h
        | ok others =>
          rw [hscan] at h
          cases h
          have hothers := ih hscan
          cases lexeme with
          | condition text =>
            exact List.forall_mem_cons.mpr ⟨isCondition_of_take? htake, hothers⟩
          | _ => exact hothers
      · cases h

end Lexeme

theorem conditionTexts_of_scan {text : String} {ls : List Located}
    (h : Lexeme.scan (Text.trim text.toList) = .ok ls) :
    conditionTexts text =
      .ok ((Lexeme.conditionTexts (plain ls)).map String.ofList).eraseDups := by
  have htexts : (ls.filterMap fun l =>
      match l.lexeme with
      | .condition cs => some (String.ofList cs)
      | _ => none) = (Lexeme.conditionTexts (plain ls)).map String.ofList := by
    rw [Lexeme.conditionTexts, plain, List.filterMap_map, List.map_filterMap]
    congr 1
    funext l
    obtain ⟨lexeme, offset⟩ := l
    cases lexeme <;> rfl
  rw [conditionTexts, h, ← htexts]
  rfl

theorem leaves_ofAll (ts : List Tree) : (Tree.ofAll ts).leaves = Tree.leavesOf ts := by
  unfold Tree.ofAll
  split
  · rw [Tree.leavesOf, Tree.leavesOf, List.append_nil]
  · rfl

theorem leaves_ofAny (ts : List Tree) : (Tree.ofAny ts).leaves = Tree.leavesOf ts := by
  unfold Tree.ofAny
  split
  · rw [Tree.leavesOf, Tree.leavesOf, List.append_nil]
  · rfl

mutual

/-- The leaves of a derived tree are what the conditions of the derivation denote, in order. -/
theorem Operand.denotes_leaves (o : Operand) :
    List.Forall₂ Denotes (Lexeme.conditionTexts o.lexemes) o.tree.leaves := by
  match o with
  | @Operand.condition text tree denotes =>
    rw [Operand.tree, Tree.leaves_of_isLeaf denotes.isLeaf]
    exact .cons denotes .nil
  | .negation o => exact o.denotes_leaves
  | .group d =>
    rw [Operand.tree, leaves_ofAny, Operand.lexemes]
    have htexts : Lexeme.conditionTexts (.opening :: (d.lexemes ++ [.closing])) =
        Lexeme.conditionTexts d.lexemes :=
      (Lexeme.conditionTexts_append d.lexemes [.closing]).trans (List.append_nil _)
    rw [htexts]
    exact d.denotes_leaves

theorem Conjunction.denotes_leaves (c : Conjunction) :
    List.Forall₂ Denotes (Lexeme.conditionTexts c.lexemes) (Tree.leavesOf c.trees) := by
  match c with
  | .last o =>
    rw [Conjunction.trees, Tree.leavesOf, Tree.leavesOf, List.append_nil]
    exact o.denotes_leaves
  | .and o c =>
    rw [Conjunction.lexemes, Lexeme.conditionTexts_append, Conjunction.trees, Tree.leavesOf]
    exact List.rel_append o.denotes_leaves c.denotes_leaves

theorem Disjunction.denotes_leaves (d : Disjunction) :
    List.Forall₂ Denotes (Lexeme.conditionTexts d.lexemes) (Tree.leavesOf d.trees) := by
  match d with
  | .last c =>
    rw [Disjunction.trees, Tree.leavesOf, Tree.leavesOf, List.append_nil, leaves_ofAll]
    exact c.denotes_leaves
  | .or c d =>
    rw [Disjunction.lexemes, Lexeme.conditionTexts_append, Disjunction.trees, Tree.leavesOf,
      leaves_ofAll]
    exact List.rel_append c.denotes_leaves d.denotes_leaves

end

/-- What the leaves of a tree that was read have to do with the lexemes of its text. -/
theorem exists_scan_of_read {text : String} {tree : Tree} (h : Tree.read text = .ok tree) :
    ∃ ls, Lexeme.scan (Text.trim text.toList) = .ok ls ∧
      (tree = .constant true ∧ ls = [] ∨
        List.Forall₂ Denotes (Lexeme.conditionTexts (plain ls)) tree.leaves) := by
  by_cases hblank : Text.trim text.toList = []
  · rw [Tree.read, hblank] at h
    cases h
    exact ⟨[], by rw [hblank]; rfl, Or.inl ⟨rfl, rfl⟩⟩
  · obtain ⟨ls, hscan, hread⟩ : ∃ ls, Lexeme.scan (Text.trim text.toList) = .ok ls ∧
        treeOf (Text.trim text.toList).length ls = .ok tree := by
      have hempty := List.isEmpty_eq_false_iff.mpr hblank
      simp only [Tree.read, hempty, Bool.false_eq_true, if_false] at h
      exact exists_of_bind_eq_ok h
    obtain ⟨d, hlexemes, -, rfl⟩ := treeOf_eq_ok hread
    refine ⟨ls, hscan, Or.inr ?_⟩
    rw [← hlexemes, Disjunction.tree, leaves_ofAny]
    exact d.denotes_leaves

theorem eraseDups_filter {α : Type} [BEq α] [LawfulBEq α] (p : α → Bool) (as : List α) :
    (as.filter p).eraseDups = as.eraseDups.filter p := by
  match as with
  | [] => rfl
  | a :: as =>
    have hshorter : (as.filter fun b => !b == a).length < as.length + 1 :=
      Nat.lt_succ_of_le (List.length_filter_le _ as)
    have ih := eraseDups_filter p (as.filter fun b => !b == a)
    rw [List.eraseDups_cons, List.filter_cons, List.filter_cons, ← ih]
    by_cases ha : p a = true
    · rw [if_pos ha, if_pos ha, List.eraseDups_cons, List.filter_comm]
    · rw [if_neg ha, if_neg ha, List.filter_filter]
      congr 2
      funext b
      by_cases hb : b = a
      · subst hb
        simpa using ha
      · simp [hb]
termination_by as.length

theorem exists_denotes_of_mem {texts : List (List Char)} {leaves : List Tree}
    (h : List.Forall₂ Denotes texts leaves) {leaf : Tree} (hleaf : leaf ∈ leaves) :
    ∃ cs, Denotes cs leaf := by
  induction h with
  | nil => cases hleaf
  | cons hfirst _ ih =>
    rcases List.mem_cons.mp hleaf with rfl | hothers
    · exact ⟨_, hfirst⟩
    · exact ih hothers

theorem filterMap_customName? {texts : List (List Char)} {leaves : List Tree}
    (h : List.Forall₂ Denotes texts leaves) (htexts : ∀ cs ∈ texts, Lexeme.IsCondition cs) :
    leaves.filterMap Tree.customName? =
      (texts.map String.ofList).filter fun c => !Expression.isSelfEvaluating c := by
  induction h with
  | nil => rfl
  | @cons cs leaf texts leaves hleaf _ ih =>
    obtain ⟨hcs, hothers⟩ := List.forall_mem_cons.mp htexts
    rw [List.filterMap_cons, customName?_of_denotes hleaf hcs, ih hothers, List.map_cons,
      List.filter_cons]
    cases Expression.isSelfEvaluating (String.ofList cs) <;> rfl

namespace Expression

/-- The missing evaluators, and the failures of a tree that was read. -/
theorem missingEvaluators_of_read {e : Expression} {tree : Tree}
    (hread : Tree.read e.text = .ok tree) :
    e.missingEvaluators =
      .ok (tree.customNames.filter fun name => !e.hasEvaluator name).eraseDups := by
  obtain ⟨ls, hscan, hleaves⟩ := exists_scan_of_read hread
  have hnames : tree.customNames =
      ((Lexeme.conditionTexts (plain ls)).map String.ofList).filter fun c =>
        !isSelfEvaluating c := by
    rcases hleaves with ⟨rfl, rfl⟩ | hdenotes
    · rfl
    · exact filterMap_customName? hdenotes (Lexeme.isCondition_of_scanFrom hscan)
  rw [missingEvaluators, usedConditions, conditionTexts_of_scan hscan, hnames, List.filter_filter,
    eraseDups_filter]
  simp only [Bool.and_comm]
  rfl

theorem failure_of_holds {es : Entries Evaluator} {t : DateTime} {text : String} {tree : Tree}
    (hread : Tree.read text = .ok tree) {failure : Failure}
    (h : tree.holds es t = .error failure) :
    NamesNothing failure ∨ ∃ name ∈ tree.customNames, es.contains name = false ∧
      failure = .temporal (.missingEvaluator name) := by
  obtain ⟨leaf, hleaf, hfails⟩ := Tree.exists_failing_leaf es t h
  obtain ⟨ls, -, ⟨rfl, -⟩ | hdenotes⟩ := exists_scan_of_read hread
  · rw [List.mem_singleton.mp hleaf] at hfails
    cases hfails
  · obtain ⟨cs, hcs⟩ := exists_denotes_of_mem hdenotes hleaf
    rcases failure_of_denotes hcs hfails with hnothing | ⟨name, hname, hmissing, rfl⟩
    · exact Or.inl hnothing
    · exact Or.inr ⟨name, List.mem_filterMap.mpr ⟨leaf, hleaf, hname⟩, hmissing, rfl⟩

/-- The missing evaluators of an expression that can be read, after any calls, are the names of the
custom conditions in its tree without a predicate, each once and in the order of their first places.
Evaluation asks for none but these, and fails otherwise only where a condition names no schedule, no
day or no occurrence. -/
theorem missingEvaluators_after (text : String) (events : List Event) {tree : Tree}
    (hread : Tree.read text = .ok tree) :
    ∃ names, (after { text } events).missingEvaluators = .ok names ∧
      names = (tree.customNames.filter fun name =>
        !(after { text } events).hasEvaluator name).eraseDups ∧
      ∀ t failure, ((after { text } events).evaluate t).1 = .error failure →
        NamesNothing failure ∨
          ∃ name ∈ names, failure = .temporal (.missingEvaluator name) := by
  have htext := after_text { text } events
  have hread' : Tree.read (after { text } events).text = .ok tree := by rwa [htext]
  refine ⟨_, missingEvaluators_of_read hread', rfl, ?_⟩
  intro t failure hfails
  have hnew : Faithful { text } := faithful_of_unread rfl
  have hholds := (after_faithful hnew events).holds_eq t
  rw [answer, hread'] at hholds
  rcases failure_of_holds hread (hholds.symm.trans hfails) with
    hnothing | ⟨name, hname, hmissing, rfl⟩
  · exact Or.inl hnothing
  · refine Or.inr ⟨name, List.mem_eraseDups.mpr (List.mem_filter.mpr ⟨hname, ?_⟩), rfl⟩
    rw [hasEvaluator, hmissing]
    rfl

theorem missingEvaluators_strike :
    Tree.read "strike&& payday||!(8:00-18:30 && strike || weekend) || nth:friday:9" =
        .ok (.any [.all [.custom "strike", .custom "payday"],
          .not (.any [.all [.timeRange "8:00-18:30", .custom "strike"], .keyword "weekend"]),
          .nthWeekday "friday" [9]]) ∧
      ∃ names, names = ["strike"] ∧
        (after { text := "strike&& payday||!(8:00-18:30 && strike || weekend) || nth:friday:9" }
          [.register "payday" fun _ => true]).missingEvaluators = .ok names ∧
        ∀ t failure,
          ((after { text := "strike&& payday||!(8:00-18:30 && strike || weekend) || nth:friday:9" }
            [.register "payday" fun _ => true]).evaluate t).1 = .error failure →
          NamesNothing failure ∨ ∃ name ∈ names, failure = .temporal (.missingEvaluator name) := by
  have hread : Tree.read "strike&& payday||!(8:00-18:30 && strike || weekend) || nth:friday:9" =
      .ok (.any [.all [.custom "strike", .custom "payday"],
        .not (.any [.all [.timeRange "8:00-18:30", .custom "strike"], .keyword "weekend"]),
        .nthWeekday "friday" [9]]) := rfl
  obtain ⟨names, hmissing, hnames, hfailure⟩ :=
    missingEvaluators_after _ [.register "payday" fun _ => true] hread
  exact ⟨hread, names, hnames, hmissing, hfailure⟩

end Expression

end Placeholder.Temporal
