import Mathlib
import Placeholder.Proofs.EntryKeys
import Placeholder.Proofs.TemporalGrammar
import Placeholder.Temporal.Expression

/-!
# The kept tree of an expression

An expression keeps the tree that it has read until a predicate is registered. The invariant is that
a kept tree is the tree of the text, so that evaluating gives what it gives without one, failures
included. A tree asks for predicates under the names of its custom conditions only, and no built-in
keyword is one of them.
-/

namespace Placeholder.Temporal

open Calendar

/-! ### Names that a tree asks for -/

/-- Two containers with the same predicates under every name that is no built-in keyword. -/
def SameCustom (es fs : Entries Evaluator) : Prop :=
  ∀ name, name ∉ builtInKeywords → es.get? name = fs.get? name

section

variable {es fs : Entries Evaluator} (t : DateTime)

theorem Denotes.holds_eq (h : SameCustom es fs) {cs : List Char} {tree : Tree}
    (hd : Denotes cs tree) : tree.holds es t = tree.holds fs t := by
  cases hd with
  | custom _ _ _ _ hname => rw [Tree.holds, Tree.holds, h _ hname]
  | _ => rfl

theorem allHold_eq {ts : List Tree} (h : ∀ c ∈ ts, c.holds es t = c.holds fs t) :
    Tree.allHold es t ts = Tree.allHold fs t ts := by
  induction ts with
  | nil => rfl
  | cons c cs ih =>
    obtain ⟨hc, hcs⟩ := List.forall_mem_cons.mp h
    rw [Tree.allHold, Tree.allHold, hc, ih hcs]

theorem anyHolds_eq {ts : List Tree} (h : ∀ c ∈ ts, c.holds es t = c.holds fs t) :
    Tree.anyHolds es t ts = Tree.anyHolds fs t ts := by
  induction ts with
  | nil => rfl
  | cons c cs ih =>
    obtain ⟨hc, hcs⟩ := List.forall_mem_cons.mp h
    rw [Tree.anyHolds, Tree.anyHolds, hc, ih hcs]

theorem holds_ofAll_eq {ts : List Tree} (h : ∀ c ∈ ts, c.holds es t = c.holds fs t) :
    (Tree.ofAll ts).holds es t = (Tree.ofAll ts).holds fs t := by
  unfold Tree.ofAll
  split
  · exact h _ List.mem_cons_self
  · rw [Tree.holds, Tree.holds, allHold_eq t h]

theorem holds_ofAny_eq {ts : List Tree} (h : ∀ c ∈ ts, c.holds es t = c.holds fs t) :
    (Tree.ofAny ts).holds es t = (Tree.ofAny ts).holds fs t := by
  unfold Tree.ofAny
  split
  · exact h _ List.mem_cons_self
  · rw [Tree.holds, Tree.holds, anyHolds_eq t h]

mutual

theorem Operand.holds_eq (h : SameCustom es fs) (o : Operand) :
    o.tree.holds es t = o.tree.holds fs t := by
  match o with
  | .condition denotes => exact denotes.holds_eq t h
  | .negation o => rw [Operand.tree, Tree.holds, Tree.holds, o.holds_eq h]
  | .group d => exact holds_ofAny_eq t (d.holds_eq h)

theorem Conjunction.holds_eq (h : SameCustom es fs) (c : Conjunction) :
    ∀ u ∈ c.trees, u.holds es t = u.holds fs t := by
  match c with
  | .last o => exact List.forall_mem_singleton.mpr (o.holds_eq h)
  | .and o c => exact List.forall_mem_cons.mpr ⟨o.holds_eq h, c.holds_eq h⟩

theorem Disjunction.holds_eq (h : SameCustom es fs) (d : Disjunction) :
    ∀ u ∈ d.trees, u.holds es t = u.holds fs t := by
  match d with
  | .last c => exact List.forall_mem_singleton.mpr (holds_ofAll_eq t (c.holds_eq h))
  | .or c d => exact List.forall_mem_cons.mpr ⟨holds_ofAll_eq t (c.holds_eq h), d.holds_eq h⟩

end

/-- A tree that was read asks for no predicate under a built-in keyword. -/
theorem holds_read_eq (h : SameCustom es fs) {text : String} {tree : Tree}
    (hread : Tree.read text = .ok tree) : tree.holds es t = tree.holds fs t := by
  by_cases hblank : Text.trim text.toList = []
  · rw [Tree.read, hblank] at hread
    cases hread
    rfl
  · obtain ⟨ls, hscan, -⟩ : ∃ ls, Lexeme.scan (Text.trim text.toList) = .ok ls ∧
        treeOf (Text.trim text.toList).length ls = .ok tree := by
      have hempty := List.isEmpty_eq_false_iff.mpr hblank
      simp only [Tree.read, hempty, Bool.false_eq_true, if_false] at hread
      exact exists_of_bind_eq_ok hread
    obtain ⟨d, -, -, rfl⟩ := (Tree.read_eq_ok_iff hblank hscan tree).mp hread
    exact holds_ofAny_eq t (d.holds_eq t h)

end

/-! ### Histories -/

namespace Expression

inductive Event where
  | register (keyword : String) (f : Evaluator)
  | evaluate (t : DateTime)

def step (e : Expression) : Event → Expression
  | .register keyword f => e.register keyword f
  | .evaluate t => (e.evaluate t).2

/-- The expression after calls in their order. -/
def after (e : Expression) (events : List Event) : Expression :=
  events.foldl step e

def Event.registration? : Event → Option (String × Evaluator)
  | register keyword f => some (keyword, f)
  | evaluate _ => none

def registrations (events : List Event) : List (String × Evaluator) :=
  events.filterMap Event.registration?

/-- The predicate that was registered last under a keyword. -/
def current? (events : List Event) (keyword : String) : Option Evaluator :=
  Entries.get? (registrations events).reverse keyword

/-- The call registers no predicate under a built-in keyword. -/
def Event.sparesBuiltIns (event : Event) : Bool :=
  event.registration?.all fun r => !builtInKeywords.contains r.1

/-- What a text answers over predicates when its tree is read anew. -/
def answer (text : String) (evaluators : Entries Evaluator) (t : DateTime) : Except Failure Bool :=
  match Tree.read text with
  | .ok tree => tree.holds evaluators t
  | .error error => .error (.grammar error)

/-- A kept tree is the tree of the text. -/
def Faithful (e : Expression) : Prop :=
  ∀ tree, e.tree = some tree → Tree.read e.text = .ok tree

theorem faithful_of_unread {e : Expression} (h : e.tree = none) : e.Faithful := by
  intro tree htree
  rw [h] at htree
  cases htree

theorem Faithful.holds_eq {e : Expression} (h : e.Faithful) (t : DateTime) :
    e.holds t = answer e.text e.evaluators t := by
  unfold holds evaluate answer
  cases htree : e.tree with
  | some tree => rw [h tree htree]
  | none => cases hread : Tree.read e.text <;> rfl

theorem answer_congr {es fs : Entries Evaluator} (h : SameCustom es fs) (text : String)
    (t : DateTime) : answer text es t = answer text fs t := by
  unfold answer
  cases hread : Tree.read text with
  | error error => rfl
  | ok tree => exact holds_read_eq t h hread

/-- Evaluating leaves an expression as it is, but for the tree that it may have read. -/
theorem evaluate_snd (e : Expression) (t : DateTime) :
    (e.evaluate t).2 = e ∨
      ∃ tree, Tree.read e.text = .ok tree ∧ (e.evaluate t).2 = { e with tree := some tree } := by
  unfold evaluate
  cases e.tree with
  | some tree => exact Or.inl rfl
  | none =>
    cases hread : Tree.read e.text with
    | ok tree => exact Or.inr ⟨tree, rfl, rfl⟩
    | error error => exact Or.inl rfl

theorem step_faithful {e : Expression} (h : e.Faithful) (event : Event) :
    (e.step event).Faithful := by
  cases event with
  | register keyword f => exact faithful_of_unread rfl
  | evaluate t =>
    rcases evaluate_snd e t with hsame | ⟨tree, hread, hkept⟩
    · rwa [step, hsame]
    · rw [step, hkept]
      intro kept htree
      cases htree
      exact hread

theorem step_text (e : Expression) (event : Event) : (e.step event).text = e.text := by
  cases event with
  | register keyword f => rfl
  | evaluate t =>
    rcases evaluate_snd e t with hsame | ⟨tree, -, hkept⟩
    · rw [step, hsame]
    · rw [step, hkept]

theorem step_evaluators (e : Expression) (event : Event) :
    (e.step event).evaluators = e.evaluators.insertAll event.registration?.toList := by
  cases event with
  | register keyword f => rfl
  | evaluate t =>
    rcases evaluate_snd e t with hsame | ⟨tree, -, hkept⟩
    · rw [step, hsame]
      rfl
    · rw [step, hkept]
      rfl

theorem after_faithful {e : Expression} (h : e.Faithful) (events : List Event) :
    (e.after events).Faithful := by
  induction events generalizing e with
  | nil => exact h
  | cons event events ih => exact ih (step_faithful h event)

theorem after_text (e : Expression) (events : List Event) : (e.after events).text = e.text := by
  induction events generalizing e with
  | nil => rfl
  | cons event events ih => exact (ih (e.step event)).trans (step_text e event)

theorem after_evaluators (e : Expression) (events : List Event) :
    (e.after events).evaluators = e.evaluators.insertAll (registrations events) := by
  induction events generalizing e with
  | nil => rfl
  | cons event events ih =>
    have hcons : registrations (event :: events) =
        event.registration?.toList ++ registrations events := by
      cases event <;> rfl
    calc ((e.step event).after events).evaluators
        = (e.step event).evaluators.insertAll (registrations events) := ih (e.step event)
      _ = e.evaluators.insertAll (registrations (event :: events)) := by
        rw [step_evaluators, hcons, Entries.insertAll, Entries.insertAll, Entries.insertAll,
          List.foldl_append]

theorem registerAll_eq_after (e : Expression) (fs : List (String × Evaluator)) :
    e.registerAll fs = e.after (fs.map fun r => .register r.1 r.2) := by
  rw [after, List.foldl_map]
  rfl

theorem registrations_map_register (fs : List (String × Evaluator)) :
    registrations (fs.map fun r => .register r.1 r.2) = fs := by
  induction fs with
  | nil => rfl
  | cons r fs ih => exact congrArg (r :: ·) ih

theorem registrations_filter (events : List Event) :
    registrations (events.filter Event.sparesBuiltIns) =
      (registrations events).filter fun r => !builtInKeywords.contains r.1 := by
  rw [registrations, registrations, List.filterMap_filter, List.filter_filterMap]
  congr 1
  funext event
  cases event with
  | evaluate t => rfl
  | register keyword f =>
    simp only [Event.sparesBuiltIns, Event.registration?, Option.all_some, Option.filter_some]
    rfl

theorem get?_after_evaluators (text : String) (events : List Event) (keyword : String) :
    (after { text } events).evaluators.get? keyword = current? events keyword := by
  rw [after_evaluators, Entries.get?_insertAll_eq_reverse, Entries.get?_nil, Option.or_none,
    current?]

/-- After any calls, an expression answers what its text answers over the predicates of the moment,
each of them the one that was registered last under its keyword. A new expression with the same text
and predicates answers the same. Registering a predicate under a built-in keyword never makes a
difference. -/
theorem evaluate_after (text : String) (events : List Event) (t : DateTime) :
    ((after { text } events).evaluate t).1 = answer text (after { text } events).evaluators t ∧
      (∀ keyword,
        (after { text } events).evaluators.get? keyword = current? events keyword) ∧
      ((after { text } events).evaluate t).1 =
        ((registerAll { text } (registrations events)).evaluate t).1 ∧
      ((after { text } events).evaluate t).1 =
        ((after { text } (events.filter Event.sparesBuiltIns)).evaluate t).1 := by
  have hnew : Faithful { text } := faithful_of_unread rfl
  have hanswer : ∀ history : List Event, ((after { text } history).evaluate t).1 =
      answer text (after { text } history).evaluators t := by
    intro history
    have hholds := (after_faithful hnew history).holds_eq t
    rwa [after_text] at hholds
  refine ⟨hanswer events, get?_after_evaluators text events, ?_, ?_⟩
  · rw [registerAll_eq_after, hanswer, hanswer, after_evaluators, after_evaluators,
      registrations_map_register]
  · rw [hanswer, hanswer, after_evaluators, after_evaluators, registrations_filter]
    refine (answer_congr (fun name hname => ?_) text t).symm
    exact Entries.get?_insertAll_filter (p := fun k => !builtInKeywords.contains k)
      (by simpa using hname) _ rfl

end Expression

end Placeholder.Temporal
