import Mathlib
import Placeholder.Pipeline

/-!
# The order of the resolvers

A pipeline holds what it is made of by descending priority, and in the order of the registration
where priorities are equal. No other arrangement does so, which is why it makes no difference
whether the resolvers are sorted at once or added one after another. The first of them that takes a
token decides about it.
-/

namespace Placeholder

namespace Resolver

/-- The resolvers of one priority. -/
def ofPriority (priority : Int) (rs : List Resolver) : List Resolver :=
  rs.filter fun r => r.priority == priority

def Descending (rs : List Resolver) : Prop :=
  rs.Pairwise fun r s => s.priority ≤ r.priority

/-- The same resolvers by descending priority, those of one priority in the order given. -/
structure Arranges (rs supplied : List Resolver) : Prop where
  perm : rs.Perm supplied
  descending : Descending rs
  ties : ∀ priority, ofPriority priority rs = ofPriority priority supplied

theorem ofPriority_append (priority : Int) (rs ss : List Resolver) :
    ofPriority priority (rs ++ ss) = ofPriority priority rs ++ ofPriority priority ss :=
  List.filter_append rs ss

theorem ofPriority_cons_self (r : Resolver) (rs : List Resolver) :
    ofPriority r.priority (r :: rs) = r :: ofPriority r.priority rs :=
  List.filter_cons_of_pos (beq_self_eq_true r.priority)

theorem ofPriority_cons_of_ne {r : Resolver} {priority : Int} (h : r.priority ≠ priority)
    (rs : List Resolver) : ofPriority priority (r :: rs) = ofPriority priority rs :=
  List.filter_cons_of_neg (by simpa using h)

/-! ### There is one arrangement only -/

/-- No resolver of an arrangement has a higher priority than the first one. -/
theorem priority_le_of_ties {r s : Resolver} {rs ss : List Resolver} (hr : Descending (r :: rs))
    (h : ofPriority s.priority (r :: rs) = ofPriority s.priority (s :: ss)) :
    s.priority ≤ r.priority := by
  have hs : s ∈ ofPriority s.priority (r :: rs) := by
    rw [h, ofPriority_cons_self]
    exact List.mem_cons_self
  rcases List.mem_cons.mp (List.mem_of_mem_filter hs) with rfl | hs
  · exact le_rfl
  · exact (List.pairwise_cons.mp hr).1 s hs

theorem Descending.eq_of_ties {rs ss : List Resolver} (hr : Descending rs) (hs : Descending ss)
    (h : ∀ priority, ofPriority priority rs = ofPriority priority ss) : rs = ss := by
  induction rs generalizing ss with
  | nil =>
    cases ss with
    | nil => rfl
    | cons s ss =>
      have hnil := h s.priority
      rw [ofPriority_cons_self] at hnil
      exact absurd hnil.symm (List.cons_ne_nil _ _)
  | cons r rs ih =>
    cases ss with
    | nil =>
      have hnil := h r.priority
      rw [ofPriority_cons_self] at hnil
      exact absurd hnil (List.cons_ne_nil _ _)
    | cons s ss =>
      have hpriority : r.priority = s.priority :=
        le_antisymm (priority_le_of_ties hs (h r.priority).symm)
          (priority_le_of_ties hr (h s.priority))
      have hfirst := h r.priority
      rw [ofPriority_cons_self, hpriority, ofPriority_cons_self] at hfirst
      obtain ⟨rfl, htail⟩ := List.cons.inj hfirst
      refine congrArg (r :: ·) (ih hr.of_cons hs.of_cons fun priority => ?_)
      by_cases hne : r.priority = priority
      · rw [← hne, htail]
      · have hrest := h priority
        rwa [ofPriority_cons_of_ne hne, ofPriority_cons_of_ne hne] at hrest

theorem Arranges.unique {rs ss supplied : List Resolver} (hr : Arranges rs supplied)
    (hs : Arranges ss supplied) : rs = ss :=
  hr.descending.eq_of_ties hs.descending fun priority =>
    (hr.ties priority).trans (hs.ties priority).symm

end Resolver

namespace Pipeline

open Resolver (Arranges ofPriority)

/-! ### Sorting at once and adding one by one -/

theorem arranges_ofList (rs : List Resolver) : Arranges (ofList rs).resolvers rs := by
  have htrans : ∀ a b c : Resolver, decide (b.priority ≤ a.priority) = true →
      decide (c.priority ≤ b.priority) = true → decide (c.priority ≤ a.priority) = true := by
    intro a b c hab hbc
    rw [decide_eq_true_eq] at hab hbc ⊢
    exact hbc.trans hab
  have htotal : ∀ a b : Resolver,
      (decide (b.priority ≤ a.priority) || decide (a.priority ≤ b.priority)) = true := by
    intro a b
    simpa using le_total b.priority a.priority
  have hperm := List.mergeSort_perm rs fun a b => decide (b.priority ≤ a.priority)
  refine ⟨hperm, ?_, fun priority => ?_⟩
  · exact (List.pairwise_mergeSort htrans htotal rs).imp of_decide_eq_true
  · -- The resolvers of one priority are in order already, so that sorting leaves them in place.
    have hsorted : (ofPriority priority rs).Pairwise
        fun a b => decide (b.priority ≤ a.priority) = true := by
      refine List.pairwise_of_forall_mem_list fun a ha b hb => ?_
      have hab := (List.mem_filter.mp ha).2
      have hbb := (List.mem_filter.mp hb).2
      rw [beq_iff_eq] at hab hbb
      rw [decide_eq_true_eq, hab, hbb]
    have hsub := (List.sublist_mergeSort htrans htotal hsorted List.filter_sublist).filter
      fun r => r.priority == priority
    simp only [ofPriority, List.filter_filter, Bool.and_self] at hsub
    exact (hsub.eq_of_length (hperm.filter _).length_eq.symm).symm

theorem arranges_add {p : Pipeline} {supplied : List Resolver} (h : Arranges p.resolvers supplied)
    (r : Resolver) : Arranges (p.add r).resolvers (supplied ++ [r]) := by
  have hsorted := arranges_ofList (p.resolvers ++ [r])
  refine ⟨hsorted.perm.trans (h.perm.append_right [r]), hsorted.descending, fun priority => ?_⟩
  rw [add, hsorted.ties, Resolver.ofPriority_append, Resolver.ofPriority_append, h.ties]

theorem arranges_foldl_add {p : Pipeline} {supplied : List Resolver}
    (h : Arranges p.resolvers supplied) (rs : List Resolver) :
    Arranges (rs.foldl add p).resolvers (supplied ++ rs) := by
  induction rs generalizing p supplied with
  | nil => rwa [List.append_nil]
  | cons r rs ih =>
    rw [List.foldl_cons, List.append_cons]
    exact ih (arranges_add h r)

theorem arranges_nil : Arranges [] [] :=
  ⟨.nil, .nil, fun _ => rfl⟩

/-- Adding resolvers one by one leads to the pipeline that sorting them at once gives. -/
theorem foldl_add_eq_ofList (rs : List Resolver) : rs.foldl add ⟨[]⟩ = ofList rs := by
  have hadded : Arranges (rs.foldl add ⟨[]⟩).resolvers rs :=
    arranges_foldl_add (p := ⟨[]⟩) arranges_nil rs
  exact congrArg Pipeline.mk (hadded.unique (arranges_ofList rs))

/-! ### Dispatch -/

/-- Who decides about a token: the first resolver that takes it, whatever its outcome, or nobody. -/
inductive Decides (p : Pipeline) (t : Token) (c : Context) : Prop where
  | first {before after : List Resolver} {r : Resolver} :
      p.resolvers = before ++ r :: after → (∀ s ∈ before, s.supports t c = false) →
      r.supports t c = true → p.resolverFor? t c = some r → p.canResolve t c = true →
      p.resolve t c = r.resolve t c → Decides p t c
  | nobody : (∀ s ∈ p.resolvers, s.supports t c = false) → p.resolverFor? t c = none →
      p.canResolve t c = false →
      p.resolve t c = .error (.resolution (.unresolvable t.raw t.kind.name)) → Decides p t c

theorem decides (p : Pipeline) (t : Token) (c : Context) : p.Decides t c := by
  cases hfind : p.resolverFor? t c with
  | none =>
    have hnone : ∀ s ∈ p.resolvers, s.supports t c = false := by
      simpa using List.find?_eq_none.mp hfind
    refine .nobody hnone hfind ?_ ?_
    · rw [canResolve, hfind, Option.isSome_none]
    · rw [resolve, hfind]
  | some r =>
    obtain ⟨htakes, before, after, hsplit, hbefore⟩ := List.find?_eq_some_iff_append.mp hfind
    refine .first hsplit (by simpa using hbefore) htakes hfind ?_ ?_
    · rw [canResolve, hfind, Option.isSome_some]
    · rw [resolve, hfind]

/-! ### Plans -/

namespace Plan

/-- The calls by which a plan comes about. -/
inductive Call where
  | withDefaults
  | withoutDefaults
  | exclude (names : List String)
  | add (r : Resolver)

def perform (plan : Plan) : Call → Plan
  | .withDefaults => plan.withDefaults
  | .withoutDefaults => plan.withoutDefaults
  | .exclude names => plan.exclude names
  | .add r => plan.add r

def ofCalls (calls : List Call) : Plan :=
  calls.foldl perform {}

namespace Call

def added? : Call → Option Resolver
  | add r => some r
  | _ => none

def excludedNames : Call → List String
  | exclude names => names
  | _ => []

def defaults? : Call → Option Bool
  | withDefaults => some true
  | withoutDefaults => some false
  | _ => none

end Call

/-- The last call about the ordinary resolvers counts; they take part unless one has said so. -/
def takesDefaults (calls : List Call) : Bool :=
  ((calls.filterMap Call.defaults?).getLast?).getD true

theorem foldl_perform (plan : Plan) (calls : List Call) :
    calls.foldl perform plan =
      { added := plan.added ++ calls.filterMap Call.added?
        hasDefaults := ((calls.filterMap Call.defaults?).getLast?).getD plan.hasDefaults
        excluded := plan.excluded ++ calls.flatMap Call.excludedNames } := by
  induction calls generalizing plan with
  | nil => simp
  | cons call calls ih =>
    rw [List.foldl_cons, ih]
    cases call <;>
      simp [perform, withDefaults, withoutDefaults, exclude, add, Call.added?, Call.defaults?,
        Call.excludedNames, List.filterMap_cons, List.getLast?_cons]

/-- The resolvers that the calls supply and do not exclude, in the order of their registration. -/
def kept (k : Clock) (calls : List Call) : List Resolver :=
  ((if takesDefaults calls then Resolver.defaults k else []) ++
    calls.filterMap Call.added?).filter fun r =>
      !(calls.flatMap Call.excludedNames).contains r.name

theorem build_ofCalls (k : Clock) (calls : List Call) :
    (ofCalls calls).build k = ofList (kept k calls) := by
  rw [ofCalls, foldl_perform]
  rfl

/-- The pipeline of a plan consists of what the calls supply and do not exclude, by descending
priority and then in the order of the registration. The first resolver that takes a token gives the
result; a token that nobody takes cannot be resolved. Adding the same resolvers one by one to a
pipeline without resolvers leads to the same pipeline. -/
theorem build_arranges (k : Clock) (calls : List Call) :
    Arranges ((ofCalls calls).build k).resolvers (kept k calls) ∧
      (∀ t c, ((ofCalls calls).build k).Decides t c) ∧
      (kept k calls).foldl Pipeline.add ⟨[]⟩ = (ofCalls calls).build k := by
  rw [build_ofCalls]
  exact ⟨arranges_ofList _, fun t c => decides _ t c, foldl_add_eq_ofList _⟩

end Plan

end Pipeline

end Placeholder
