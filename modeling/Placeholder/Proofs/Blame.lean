import Mathlib
import Placeholder.Proofs.HiddenAttributes

/-!
# Failures that blame a variable

The failures of a clause name the variable that is to blame. No resolver of the standard pipeline
fails in this way, so that the name in a failure tells which declaration has failed.
-/

namespace Placeholder

def Failure.blamed? : Failure → Option String
  | .resolution (.conditionNotMet name _ _ _) => some name
  | .resolution (.variableNotResolved name _ _) => some name
  | _ => none

/-- An outcome that is no failure with the name of a variable. -/
def Blameless {α : Type} (x : Except Failure α) : Prop :=
  ∀ e, x = .error e → e.blamed? = none

section Outcomes

variable {α β ε : Type}

theorem blameless_ok (a : α) : Blameless (.ok a : Except Failure α) := by
  intro e h
  cases h

theorem blameless_error {e : Failure} (h : e.blamed? = none) :
    Blameless (.error e : Except Failure α) := by
  intro e' h'
  cases h'
  exact h

theorem Blameless.bind {x : Except Failure α} {f : α → Except Failure β} (hx : Blameless x)
    (hf : ∀ a, Blameless (f a)) : Blameless (x >>= f) := by
  cases x with
  | error e => exact blameless_error (hx e rfl)
  | ok a => exact hf a

theorem Blameless.map {x : Except Failure α} (hx : Blameless x) (f : α → β) :
    Blameless (x.map f) := by
  cases x with
  | error e => exact blameless_error (hx e rfl)
  | ok a => exact blameless_ok (f a)

theorem blameless_mapError {f : ε → Failure} (hf : ∀ e, (f e).blamed? = none) (x : Except ε α) :
    Blameless (x.mapError f) := by
  cases x with
  | error e => exact blameless_error (hf e)
  | ok a => exact blameless_ok a

end Outcomes

/-! ### Temporal conditions -/

namespace Temporal

variable (evaluators : Entries Evaluator) (t : Calendar.DateTime)

theorem blameless_ask (evaluator : Option Evaluator) (missing : TemporalError) :
    Blameless (Tree.ask evaluator missing t) := by
  cases evaluator with
  | none => exact blameless_error rfl
  | some f => exact blameless_ok _

mutual

theorem blameless_holds : ∀ tree : Tree, Blameless (tree.holds evaluators t)
  | .all ts => blameless_allHold ts
  | .any ts => blameless_anyHolds ts
  | .not c => (blameless_holds c).bind fun _ => blameless_ok _
  | .keyword _ => blameless_ask t _ _
  | .timeRange _ => (blameless_mapError (fun _ => rfl) _).bind fun _ => blameless_ok _
  | .cron _ => (blameless_mapError (fun _ => rfl) _).bind fun _ => blameless_ok _
  | .nthWeekday _ _ => blameless_mapError (fun _ => rfl) _
  | .lastWeekday _ => blameless_mapError (fun _ => rfl) _
  | .custom _ => blameless_ask t _ _
  | .constant _ => blameless_ok _

theorem blameless_allHold : ∀ ts : List Tree, Blameless (Tree.allHold evaluators t ts)
  | [] => blameless_ok _
  | c :: cs => (blameless_holds c).bind fun b => by
      cases b
      · exact blameless_ok _
      · exact blameless_allHold cs

theorem blameless_anyHolds : ∀ ts : List Tree, Blameless (Tree.anyHolds evaluators t ts)
  | [] => blameless_ok _
  | c :: cs => (blameless_holds c).bind fun b => by
      cases b
      · exact blameless_anyHolds cs
      · exact blameless_ok _

end

theorem blameless_expression (e : Expression) : Blameless (e.holds t) := by
  unfold Expression.holds Expression.evaluate
  split
  · exact blameless_holds _ t _
  · split
    · exact blameless_holds _ t _
    · exact blameless_error rfl

end Temporal

namespace Clock

theorem blameless_cronArgument (expression function : String) :
    Blameless (cronArgument expression function) := by
  unfold cronArgument
  split
  · exact blameless_mapError (fun _ => rfl) _
  · exact blameless_error rfl

theorem blameless_call (k : Clock) (t : Token) : Blameless (k.call t) := by
  unfold call
  dsimp only
  split
  · exact (Temporal.blameless_expression _ _).map _
  · exact (blameless_cronArgument _ _).bind fun _ => blameless_ok _
  · exact (blameless_cronArgument _ _).bind fun _ => blameless_ok _
  · split
    · exact (blameless_mapError (fun _ => rfl) _).map _
    · exact blameless_error rfl
  · split
    · exact (blameless_mapError (fun _ => rfl) _).map _
    · exact blameless_error rfl
  · exact blameless_error rfl

theorem blameless_orUnknown (family name : String) (v : Option Value) :
    Blameless (orUnknown family name v) := by
  cases v with
  | none => exact blameless_error rfl
  | some v => exact blameless_ok v

theorem blameless_resolve (k : Clock) (t : Token) : Blameless (k.resolve t) := by
  unfold resolve
  dsimp only
  split
  · exact blameless_call k t
  · exact blameless_orUnknown _ _ _
  · exact blameless_orUnknown _ _ _
  · exact blameless_error rfl

end Clock

/-! ### Resolvers -/

namespace Resolver

variable {m : Model} {p : Policy} {c : Context}

theorem blameless_check (m : Model) (p : Policy) (path : String) : Blameless (m.check p path) :=
  (blameless_mapError (fun _ => rfl) _).bind fun _ => blameless_mapError (fun _ => rfl) _

theorem blameless_get (path : String) : Blameless ((m.source p).get path) :=
  (blameless_check m p path).bind fun _ => blameless_ok _

theorem blameless_follow (path : List String) : Blameless ((c.onModel m p).follow path) :=
  blameless_get _

theorem blameless_reference (text : String) : Blameless ((c.onModel m p).reference text) := by
  have hget : ∀ path, Blameless ((c.onModel m p).get path) := by
    intro path
    unfold Context.get
    split
    · exact blameless_ok _
    · exact blameless_get path
  unfold Context.reference
  split
  · exact blameless_ok _
  · refine (hget text).bind fun v => ?_
    split
    · exact blameless_ok v
    · split
      · exact blameless_follow _
      · exact blameless_ok _

theorem blameless_arguments (t : Token) : Blameless (t.arguments (c.onModel m p)) := by
  have hstep : ∀ args i, Blameless (Token.lookUpArgument (c.onModel m p) args i) := by
    intro args i
    unfold Token.lookUpArgument
    split
    · exact (blameless_reference _).map _
    · exact blameless_ok _
  unfold Token.arguments
  generalize t.args = args
  induction t.referencePositions generalizing args with
  | nil => exact blameless_ok args
  | cons i positions ih =>
    rw [List.foldlM_cons]
    exact (hstep args i).bind ih

/-- The resolver fails over no model with the name of a variable. -/
def BlamesNothing (r : Resolver) : Prop :=
  ∀ t c m p, Blameless (r.resolve t (Context.onModel c m p))

theorem blamesNothing_model : model.BlamesNothing := by
  intro t c m p
  simp only [model, ofKinds]
  split
  · exact blameless_ok _
  · exact blameless_follow _

theorem blamesNothing_relation : relation.BlamesNothing := by
  intro t c m p
  simp only [relation, ofKinds]
  split
  · exact blameless_ok _
  · exact blameless_follow _

theorem blamesNothing_table : table.BlamesNothing := by
  intro t c m p
  simp only [table, ofKinds]
  split
  · exact blameless_ok _
  · exact blameless_follow _

theorem blamesNothing_nullCoalesce : nullCoalesce.BlamesNothing := by
  intro t c m p
  simp only [nullCoalesce, ofKinds]
  split
  · exact blameless_ok _
  · exact (blameless_follow _).bind fun v => blameless_ok _

theorem blamesNothing_dynamic : dynamic.BlamesNothing := by
  intro t c m p
  simp only [dynamic, ofKinds]
  split
  · exact blameless_ok _
  · refine (blameless_follow _).bind fun v => ?_
    split
    · exact blameless_ok _
    · exact blameless_get _
    · exact blameless_error rfl

theorem blamesNothing_collection : collection.BlamesNothing := by
  intro t c m p
  simp only [collection, ofKinds]
  split
  · exact blameless_ok _
  · exact (blameless_check m p _).bind fun _ => blameless_ok _

theorem blamesNothing_arithmetic : arithmetic.BlamesNothing := by
  intro t c m p
  simp only [arithmetic, ofKinds]
  split
  · exact blameless_ok _
  · exact blameless_error rfl

theorem blamesNothing_function (functions : HostFunctions) (formatters : Formatters) :
    (function functions formatters).BlamesNothing := by
  intro t c m p
  simp only [function, ofKinds]
  refine (blameless_arguments t).bind fun args => ?_
  split
  · exact blameless_mapError (fun _ => rfl) _
  · split
    · exact blameless_mapError (fun _ => rfl) _
    · exact blameless_error rfl

end Resolver

namespace Pipeline

/-- The default pipeline with the resolvers of arithmetic and of calls, at some instant and with some
functions and formatters. -/
def IsStandard (pl : Pipeline) : Prop :=
  ∃ k functions formatters, pl = standard k functions formatters

namespace IsStandard

variable {pl : Pipeline} (hpl : pl.IsStandard) {p : Policy} {t : Token} {c : Context} {m n : Model}
include hpl

theorem resolve_of_uncovers (h : t.Uncovers p m.className c.expectedHead) :
    pl.resolve t (c.onModel m p) = .ok ((Value.host m.toHost).collectionWalk t.fieldPath) := by
  obtain ⟨k, functions, formatters, rfl⟩ := hpl
  exact resolve_standard_of_uncovers h

theorem resolve_twin (h : m.AnswerAlike n p)
    (hwhole : p.denied = [] → (Value.host m.toHost).Twin (.host n.toHost))
    (ht : ¬ t.Uncovers p m.className c.expectedHead) :
    Matches Value.Twin (pl.resolve t (c.onModel m p)) (pl.resolve t (c.onModel n p)) := by
  obtain ⟨k, functions, formatters, rfl⟩ := hpl
  exact resolve_standard_twin h hwhole ht

theorem blameless (t : Token) (c : Context) (m : Model) (p : Policy) :
    Blameless (pl.resolve t (c.onModel m p)) := by
  obtain ⟨k, functions, formatters, rfl⟩ := hpl
  unfold resolve
  split
  · rename_i r hfind
    have hr := mem_standard.mp (List.mem_of_find?_eq_some hfind)
    simp only [standardResolvers, Resolver.defaults, List.cons_append, List.nil_append,
      List.mem_cons, List.not_mem_nil, or_false] at hr
    rcases hr with rfl | rfl | rfl | rfl | rfl | rfl | rfl | rfl | rfl | rfl
    · exact Clock.blameless_resolve k t
    · exact Resolver.blamesNothing_nullCoalesce t c m p
    · exact blameless_ok _
    · exact Resolver.blamesNothing_dynamic t c m p
    · exact Resolver.blamesNothing_collection t c m p
    · exact Resolver.blamesNothing_relation t c m p
    · exact Resolver.blamesNothing_model t c m p
    · exact Resolver.blamesNothing_table t c m p
    · exact Resolver.blamesNothing_arithmetic t c m p
    · exact Resolver.blamesNothing_function functions formatters t c m p
  · exact blameless_error rfl

end IsStandard

end Pipeline

end Placeholder
