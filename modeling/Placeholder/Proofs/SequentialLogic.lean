import Mathlib
import Placeholder.Temporal.Tree

/-!
# Conditions as a sequential logic

A tree is a formula over its leaves, and a leaf is true, false or fails. Evaluation from left to
right stops as soon as the answer is found, so a failure counts only where evaluation comes to its
leaf. The result is the value of the formula as long as no such leaf fails, and the first failure
otherwise. The dual of a tree has the opposite answer and the same failure.
-/

namespace Placeholder.Temporal.Tree

open Calendar

def IsLeaf : Tree → Prop
  | all _ => False
  | any _ => False
  | not _ => False
  | _ => True

mutual

def leaves : Tree → List Tree
  | all ts => leavesOf ts
  | any ts => leavesOf ts
  | not c => leaves c
  | leaf => [leaf]

def leavesOf : List Tree → List Tree
  | [] => []
  | c :: cs => leaves c ++ leavesOf cs

end

mutual

/-- The tree with conjunction and disjunction exchanged and every leaf denied. -/
def dual : Tree → Tree
  | all ts => any (duals ts)
  | any ts => all (duals ts)
  | not c => not (dual c)
  | leaf => not leaf

def duals : List Tree → List Tree
  | [] => []
  | c :: cs => dual c :: duals cs

end

section

variable (truth : Tree → Bool)

mutual

/-- The value of the formula where its leaves have these truth values. -/
def value : Tree → Bool
  | all ts => allTrue ts
  | any ts => anyTrue ts
  | not c => !value c
  | leaf => truth leaf

def allTrue : List Tree → Bool
  | [] => true
  | c :: cs => value c && allTrue cs

def anyTrue : List Tree → Bool
  | [] => false
  | c :: cs => value c || anyTrue cs

end

mutual

/-- The leaves that evaluation comes to, in their order. Operands are passed until one has the value
that decides the node. -/
def reached : Tree → List Tree
  | all ts => reachedUntil false ts
  | any ts => reachedUntil true ts
  | not c => reached c
  | leaf => [leaf]

def reachedUntil (decisive : Bool) : List Tree → List Tree
  | [] => []
  | c :: cs =>
    reached c ++ if value truth c = decisive then [] else reachedUntil decisive cs

end

end

/-- Trees that differ in the order of operands only, at any depth. -/
inductive Reordered : Tree → Tree → Prop where
  | refl (n : Tree) : Reordered n n
  | trans {n m k : Tree} : Reordered n m → Reordered m k → Reordered n k
  | not {c d : Tree} : Reordered c d → Reordered (.not c) (.not d)
  | all {ts us : List Tree} : ts.Perm us → Reordered (.all ts) (.all us)
  | any {ts us : List Tree} : ts.Perm us → Reordered (.any ts) (.any us)
  | allOperand {c d : Tree} (before after : List Tree) : Reordered c d →
      Reordered (.all (before ++ c :: after)) (.all (before ++ d :: after))
  | anyOperand {c d : Tree} (before after : List Tree) : Reordered c d →
      Reordered (.any (before ++ c :: after)) (.any (before ++ d :: after))

/-! ### Lists of operands -/

theorem leavesOf_eq_flatMap (ts : List Tree) : leavesOf ts = ts.flatMap leaves := by
  induction ts with
  | nil => rfl
  | cons c cs ih => rw [leavesOf, ih, List.flatMap_cons]

theorem allTrue_eq_all (truth : Tree → Bool) (ts : List Tree) :
    allTrue truth ts = ts.all (value truth) := by
  induction ts with
  | nil => rfl
  | cons c cs ih => rw [allTrue, ih, List.all_cons]

theorem anyTrue_eq_any (truth : Tree → Bool) (ts : List Tree) :
    anyTrue truth ts = ts.any (value truth) := by
  induction ts with
  | nil => rfl
  | cons c cs ih => rw [anyTrue, ih, List.any_cons]

/-- Induction on a tree, with its operands all at once and one case for the leaves. -/
theorem induct {P : Tree → Prop} (hall : ∀ ts, (∀ c ∈ ts, P c) → P (all ts))
    (hany : ∀ ts, (∀ c ∈ ts, P c) → P (any ts)) (hnot : ∀ c, P c → P (not c))
    (hleaf : ∀ leaf, IsLeaf leaf → P leaf) (n : Tree) : P n :=
  @Tree.rec P (fun ts => ∀ c ∈ ts, P c) hall hany hnot (fun _ => hleaf _ trivial)
    (fun _ => hleaf _ trivial) (fun _ => hleaf _ trivial) (fun _ _ => hleaf _ trivial)
    (fun _ => hleaf _ trivial) (fun _ => hleaf _ trivial) (fun _ => hleaf _ trivial)
    (List.forall_mem_nil P) (fun _ _ hc hcs => List.forall_mem_cons.mpr ⟨hc, hcs⟩) n

theorem dual_of_isLeaf {n : Tree} (h : IsLeaf n) : n.dual = .not n := by
  cases n with
  | all ts => cases h
  | any ts => cases h
  | not c => cases h
  | _ => rfl

theorem leaves_of_isLeaf {n : Tree} (h : IsLeaf n) : n.leaves = [n] := by
  cases n with
  | all ts => cases h
  | any ts => cases h
  | not c => cases h
  | _ => rfl

theorem value_of_isLeaf {n : Tree} (h : IsLeaf n) (truth : Tree → Bool) :
    n.value truth = truth n := by
  cases n with
  | all ts => cases h
  | any ts => cases h
  | not c => cases h
  | _ => rfl

theorem reached_of_isLeaf {n : Tree} (h : IsLeaf n) (truth : Tree → Bool) :
    n.reached truth = [n] := by
  cases n with
  | all ts => cases h
  | any ts => cases h
  | not c => cases h
  | _ => rfl

/-! ### Duality -/

section

variable (es : Entries Evaluator) (t : DateTime)

theorem holds_not (c : Tree) : (not c).holds es t = (c.holds es t).map (!·) := by
  rw [holds]
  cases c.holds es t <;> rfl

theorem anyHolds_duals {ts : List Tree}
    (h : ∀ c ∈ ts, c.dual.holds es t = (c.holds es t).map (!·)) :
    anyHolds es t (duals ts) = (allHold es t ts).map (!·) := by
  induction ts with
  | nil => rfl
  | cons c cs ih =>
    obtain ⟨hc, hcs⟩ := List.forall_mem_cons.mp h
    rw [duals, anyHolds, allHold, hc, ih hcs]
    cases c.holds es t with
    | error e => rfl
    | ok b => cases b <;> rfl

theorem allHold_duals {ts : List Tree}
    (h : ∀ c ∈ ts, c.dual.holds es t = (c.holds es t).map (!·)) :
    allHold es t (duals ts) = (anyHolds es t ts).map (!·) := by
  induction ts with
  | nil => rfl
  | cons c cs ih =>
    obtain ⟨hc, hcs⟩ := List.forall_mem_cons.mp h
    rw [duals, anyHolds, allHold, hc, ih hcs]
    cases c.holds es t with
    | error e => rfl
    | ok b => cases b <;> rfl

theorem holds_dual (n : Tree) : n.dual.holds es t = (n.holds es t).map (!·) := by
  induction n using induct with
  | hall ts ih =>
    rw [dual, holds, holds]
    exact anyHolds_duals es t ih
  | hany ts ih =>
    rw [dual, holds, holds]
    exact allHold_duals es t ih
  | hnot c ih => rw [dual, holds_not, holds_not, ih]
  | hleaf leaf h => rw [dual_of_isLeaf h, holds_not]

end

/-! ### Order of operands -/

theorem value_all (truth : Tree → Bool) (ts : List Tree) :
    (all ts).value truth = ts.all (value truth) :=
  allTrue_eq_all truth ts

theorem value_any (truth : Tree → Bool) (ts : List Tree) :
    (any ts).value truth = ts.any (value truth) :=
  anyTrue_eq_any truth ts

theorem Reordered.value_eq {n m : Tree} (h : Reordered n m) (truth : Tree → Bool) :
    n.value truth = m.value truth := by
  induction h with
  | refl n => rfl
  | trans _ _ ihn ihm => exact ihn.trans ihm
  | not _ ih => rw [value, value, ih]
  | all hperm => rw [value_all, value_all, hperm.all_eq]
  | any hperm => rw [value_any, value_any, hperm.any_eq]
  | allOperand before after _ ih => simp only [value_all, List.all_append, List.all_cons, ih]
  | anyOperand before after _ ih => simp only [value_any, List.any_append, List.any_cons, ih]

theorem Reordered.leaves_perm {n m : Tree} (h : Reordered n m) : n.leaves.Perm m.leaves := by
  induction h with
  | refl n => exact .refl _
  | trans _ _ ihn ihm => exact ihn.trans ihm
  | not _ ih => exact ih
  | all hperm =>
    rw [leaves, leaves, leavesOf_eq_flatMap, leavesOf_eq_flatMap]
    exact hperm.flatMap_right leaves
  | any hperm =>
    rw [leaves, leaves, leavesOf_eq_flatMap, leavesOf_eq_flatMap]
    exact hperm.flatMap_right leaves
  | allOperand before after _ ih =>
    rw [leaves, leaves]
    simp only [leavesOf_eq_flatMap, List.flatMap_append, List.flatMap_cons]
    exact (ih.append_right _).append_left _
  | anyOperand before after _ ih =>
    rw [leaves, leaves]
    simp only [leavesOf_eq_flatMap, List.flatMap_append, List.flatMap_cons]
    exact (ih.append_right _).append_left _

/-! ### What evaluation comes to -/

section

variable (es : Entries Evaluator) (t : DateTime)

def failure? (n : Tree) : Option Failure :=
  match n.holds es t with
  | .ok _ => none
  | .error e => some e

theorem failure?_eq_some_iff {n : Tree} {e : Failure} :
    failure? es t n = some e ↔ n.holds es t = .error e := by
  unfold failure?
  cases n.holds es t <;> simp

theorem failure?_eq_none_iff {n : Tree} :
    failure? es t n = none ↔ ∃ b, n.holds es t = .ok b := by
  unfold failure?
  cases n.holds es t <;> simp

/-- The answer, unless there is a failure. -/
def settled (failure : Option Failure) (answer : Bool) : Except Failure Bool :=
  match failure with
  | none => .ok answer
  | some e => .error e

variable {truth : Tree → Bool}

theorem allHold_eq_settled {ts : List Tree}
    (h : ∀ c ∈ ts, c.holds es t =
      settled ((c.reached truth).findSome? (failure? es t)) (c.value truth)) :
    allHold es t ts =
      settled ((reachedUntil truth false ts).findSome? (failure? es t)) (allTrue truth ts) := by
  induction ts with
  | nil => rfl
  | cons c cs ih =>
    obtain ⟨hc, hcs⟩ := List.forall_mem_cons.mp h
    rw [allHold, hc, ih hcs, reachedUntil, allTrue, List.findSome?_append]
    cases (c.reached truth).findSome? (failure? es t) with
    | some e => rfl
    | none => cases c.value truth <;> rfl

theorem anyHolds_eq_settled {ts : List Tree}
    (h : ∀ c ∈ ts, c.holds es t =
      settled ((c.reached truth).findSome? (failure? es t)) (c.value truth)) :
    anyHolds es t ts =
      settled ((reachedUntil truth true ts).findSome? (failure? es t)) (anyTrue truth ts) := by
  induction ts with
  | nil => rfl
  | cons c cs ih =>
    obtain ⟨hc, hcs⟩ := List.forall_mem_cons.mp h
    rw [anyHolds, hc, ih hcs, reachedUntil, anyTrue, List.findSome?_append]
    cases (c.reached truth).findSome? (failure? es t) with
    | some e => rfl
    | none => cases c.value truth <;> rfl

/-- Where the truth values agree with the leaves that have an answer, evaluation gives the value of
the formula or the first failure that it comes to. -/
theorem holds_eq_settled {n : Tree}
    (h : ∀ leaf ∈ n.leaves, ∀ b, leaf.holds es t = .ok b → truth leaf = b) :
    n.holds es t = settled ((n.reached truth).findSome? (failure? es t)) (n.value truth) := by
  induction n using induct with
  | hall ts ih =>
    rw [leaves, leavesOf_eq_flatMap] at h
    rw [holds, reached, value]
    apply allHold_eq_settled
    intro c hc
    exact ih c hc fun leaf hleaf => h leaf (List.mem_flatMap.mpr ⟨c, hc, hleaf⟩)
  | hany ts ih =>
    rw [leaves, leavesOf_eq_flatMap] at h
    rw [holds, reached, value]
    apply anyHolds_eq_settled
    intro c hc
    exact ih c hc fun leaf hleaf => h leaf (List.mem_flatMap.mpr ⟨c, hc, hleaf⟩)
  | hnot c ih =>
    rw [holds_not, ih h, reached, value]
    cases (c.reached truth).findSome? (failure? es t) <;> rfl
  | hleaf leaf hleaf =>
    rw [leaves_of_isLeaf hleaf] at h
    rw [reached_of_isLeaf hleaf, value_of_isLeaf hleaf, List.findSome?_singleton, failure?]
    cases hholds : leaf.holds es t with
    | error e => rfl
    | ok b =>
      rw [h leaf List.mem_cons_self b hholds]
      rfl

theorem reachedUntil_subset {decisive : Bool} {ts : List Tree}
    (h : ∀ c ∈ ts, c.reached truth ⊆ c.leaves) : reachedUntil truth decisive ts ⊆ leavesOf ts := by
  induction ts with
  | nil => exact List.nil_subset _
  | cons c cs ih =>
    obtain ⟨hc, hcs⟩ := List.forall_mem_cons.mp h
    rw [reachedUntil, leavesOf]
    apply List.append_subset.mpr
    constructor
    · exact List.subset_append_of_subset_left _ hc
    · split
      · exact List.nil_subset _
      · exact List.subset_append_of_subset_right _ (ih hcs)

theorem reached_subset (n : Tree) : n.reached truth ⊆ n.leaves := by
  induction n using induct with
  | hall ts ih => exact reachedUntil_subset ih
  | hany ts ih => exact reachedUntil_subset ih
  | hnot c ih => exact ih
  | hleaf leaf h =>
    rw [reached_of_isLeaf h, leaves_of_isLeaf h]
    exact List.Subset.refl [leaf]

theorem settled_eq_error_iff {failure : Option Failure} {answer : Bool} {e : Failure} :
    settled failure answer = .error e ↔ failure = some e := by
  cases failure <;> simp [settled]

/-- A tree fails with the failure of one of its leaves. -/
theorem exists_failing_leaf {n : Tree} {e : Failure} (h : n.holds es t = .error e) :
    ∃ leaf ∈ n.leaves, leaf.holds es t = .error e := by
  have hagree : ∀ leaf ∈ n.leaves, ∀ b, leaf.holds es t = .ok b →
      (leaf.holds es t).toOption.getD false = b := by
    intro leaf _ b hb
    rw [hb]
    rfl
  rw [holds_eq_settled es t hagree, settled_eq_error_iff] at h
  obtain ⟨leaf, hleaf, hfailure⟩ := List.exists_of_findSome?_eq_some h
  exact ⟨leaf, reached_subset n hleaf, (failure?_eq_some_iff es t).mp hfailure⟩

theorem holds_eq_value {n : Tree}
    (h : ∀ leaf ∈ n.leaves, ∀ b, leaf.holds es t = .ok b → truth leaf = b)
    (hreached : ∀ leaf ∈ n.reached truth, ∃ b, leaf.holds es t = .ok b) :
    n.holds es t = .ok (n.value truth) := by
  have hnone : (n.reached truth).findSome? (failure? es t) = none := by
    apply List.findSome?_eq_none_iff.mpr
    intro leaf hleaf
    exact (failure?_eq_none_iff es t).mpr (hreached leaf hleaf)
  rw [holds_eq_settled es t h, hnone]
  rfl

theorem holds_of_no_failure {n : Tree}
    (h : ∀ leaf ∈ n.leaves, leaf.holds es t = .ok (truth leaf)) :
    n.holds es t = .ok (n.value truth) := by
  apply holds_eq_value
  · intro leaf hleaf b hb
    rw [h leaf hleaf] at hb
    exact Except.ok.inj hb
  · intro leaf hleaf
    exact ⟨_, h leaf (reached_subset n hleaf)⟩

end

/-- The dual has the opposite answer and the same failure. Where every leaf has an answer, a tree
and its reorderings have the value of the formula. In general the failure is that of the first
failing leaf that evaluation comes to, and without one the answer is the value of the formula. -/
theorem holds_sequential (es : Entries Evaluator) (t : DateTime) (n : Tree) :
    n.dual.holds es t = (n.holds es t).map (!·) ∧
      (∀ truth : Tree → Bool, (∀ leaf ∈ n.leaves, leaf.holds es t = .ok (truth leaf)) →
        ∀ m, Reordered n m → m.holds es t = .ok (n.value truth)) ∧
      (∀ truth : Tree → Bool,
        (∀ leaf ∈ n.leaves, ∀ b, leaf.holds es t = .ok b → truth leaf = b) →
        (∀ e, n.holds es t = .error e ↔
          ∃ before leaf after, n.reached truth = before ++ leaf :: after ∧
            leaf.holds es t = .error e ∧ ∀ earlier ∈ before, ∃ b, earlier.holds es t = .ok b) ∧
        ((∀ leaf ∈ n.reached truth, ∃ b, leaf.holds es t = .ok b) →
          n.holds es t = .ok (n.value truth))) := by
  refine ⟨holds_dual es t n, ?_, ?_⟩
  · intro truth h m hm
    rw [hm.value_eq truth]
    apply holds_of_no_failure
    intro leaf hleaf
    exact h leaf (hm.leaves_perm.mem_iff.mpr hleaf)
  · intro truth h
    refine ⟨?_, holds_eq_value es t h⟩
    intro e
    rw [holds_eq_settled es t h, settled_eq_error_iff, List.findSome?_eq_some_iff]
    simp only [failure?_eq_some_iff, failure?_eq_none_iff]

def paydayOnly : Entries Evaluator :=
  [("payday", fun _ => true)]

def isPayday (leaf : Tree) : Bool :=
  leaf matches custom "payday"

def strikeOrHoliday : Tree :=
  any [all [custom "payday", keyword "never", custom "strike"], custom "holiday"]

def decemberNight : DateTime :=
  ⟨⟨2025, 12, 6, by decide⟩, .midnight⟩

theorem leaves_strikeOrHoliday_agree : ∀ leaf ∈ strikeOrHoliday.leaves,
    ∀ b, leaf.holds paydayOnly decemberNight = .ok b → isPayday leaf = b := by
  intro leaf hleaf b hb
  simp only [strikeOrHoliday, leaves, leavesOf, List.append_nil, List.cons_append, List.nil_append,
    List.mem_cons, List.not_mem_nil, or_false] at hleaf
  rcases hleaf with rfl | rfl | rfl | rfl
  · exact Except.ok.inj hb
  · exact Except.ok.inj hb
  · cases hb
  · cases hb

/-- The failing strike is not come to, and the failing holiday is; without either of them the order
of the operands does not matter. -/
theorem holds_unknownHoliday :
    (∀ leaf ∈ strikeOrHoliday.leaves,
        ∀ b, leaf.holds paydayOnly decemberNight = .ok b → isPayday leaf = b) ∧
      strikeOrHoliday.reached isPayday = [custom "payday", keyword "never", custom "holiday"] ∧
      strikeOrHoliday.holds paydayOnly decemberNight =
        .error (.temporal (.missingEvaluator "holiday")) ∧
      strikeOrHoliday.dual.holds paydayOnly decemberNight =
        .error (.temporal (.missingEvaluator "holiday")) ∧
      (any [keyword "never", custom "payday"]).holds paydayOnly decemberNight = .ok true := by
  obtain ⟨hdual, -, hfailure⟩ := holds_sequential paydayOnly decemberNight strikeOrHoliday
  have hholds : strikeOrHoliday.holds paydayOnly decemberNight =
      .error (.temporal (.missingEvaluator "holiday")) := by
    apply ((hfailure isPayday leaves_strikeOrHoliday_agree).1 _).mpr
    refine ⟨[custom "payday", keyword "never"], custom "holiday", [], rfl, rfl, ?_⟩
    exact List.forall_mem_cons.mpr ⟨⟨true, rfl⟩, List.forall_mem_singleton.mpr ⟨false, rfl⟩⟩
  obtain ⟨-, horder, -⟩ :=
    holds_sequential paydayOnly decemberNight (any [custom "payday", keyword "never"])
  have hswapped : (any [keyword "never", custom "payday"]).holds paydayOnly decemberNight =
      .ok true :=
    horder isPayday (List.forall_mem_cons.mpr ⟨rfl, List.forall_mem_singleton.mpr rfl⟩) _
      (.any (.swap _ _ _))
  refine ⟨leaves_strikeOrHoliday_agree, rfl, hholds, ?_, hswapped⟩
  rw [hdual, hholds]
  rfl

end Placeholder.Temporal.Tree
