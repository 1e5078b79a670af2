import Mathlib
import Placeholder.Pipeline
import Placeholder.Proofs.Searching
import Placeholder.Token.Classify
import Placeholder.Value.Encoding

/-!
# Hidden attributes

What the guard of a model keeps from the resolvers. Two models that differ under hidden names alone
answer every path and every check in the same way; only the whole structure behind the guard tells
them apart, and the resolver of collections is the only one that looks at it. It uncovers something
hidden exactly when the walk starts at the whole model, or at a hidden name that the check has read
as another one.
-/

namespace Placeholder

/-! ### Outcomes that match -/

/-- Outcomes that fail with the same error or succeed with related results. -/
inductive Matches {ε α β : Type} (R : α → β → Prop) : Except ε α → Except ε β → Prop where
  | error (e : ε) : Matches R (.error e) (.error e)
  | ok {a : α} {b : β} : R a b → Matches R (.ok a) (.ok b)

namespace Matches

variable {ε α β γ δ : Type} {R : α → β → Prop} {S : γ → δ → Prop}

theorem mono {R' : α → β → Prop} {x : Except ε α} {y : Except ε β} (h : Matches R x y)
    (hR : ∀ a b, R a b → R' a b) : Matches R' x y := by
  cases h with
  | error e => exact .error e
  | ok hab => exact .ok (hR _ _ hab)

theorem of_eq {R : α → α → Prop} (hR : ∀ a, R a a) {x y : Except ε α} (h : x = y) :
    Matches R x y := by
  subst h
  cases x with
  | error e => exact .error e
  | ok a => exact .ok (hR a)

theorem bind {x : Except ε α} {y : Except ε β} {f : α → Except ε γ} {g : β → Except ε δ}
    (h : Matches R x y) (hfg : ∀ a b, R a b → Matches S (f a) (g b)) :
    Matches S (x >>= f) (y >>= g) := by
  cases h with
  | error e => exact .error e
  | ok hab => exact hfg _ _ hab

theorem foldlM {τ : Type} {f : α → τ → Except ε α} {g : β → τ → Except ε β} {steps : List τ}
    {a : α} {b : β} (hab : R a b)
    (hfg : ∀ t ∈ steps, ∀ a b, R a b → Matches R (f a t) (g b t)) :
    Matches R (steps.foldlM f a) (steps.foldlM g b) := by
  induction steps generalizing a b with
  | nil => exact .ok hab
  | cons t steps ih =>
    rw [List.foldlM_cons, List.foldlM_cons]
    refine (hfg t List.mem_cons_self a b hab).bind fun a' b' hab' => ?_
    exact ih hab' fun u hu => hfg u (List.mem_cons_of_mem t hu)

end Matches

/-! ### Values without their identities -/

namespace Value

/-- The same value, or two host objects that differ in their identities alone. -/
inductive Twin : Value → Value → Prop where
  | same (v : Value) : Twin v v
  | host (h : HostObject Value) (identity : Nat) : Twin (.host h) (.host { h with identity })

namespace Twin

variable {v w : Value}

theorem templateText_eq (h : v.Twin w) : v.templateText = w.templateText := by
  cases h with
  | same => rfl
  | host h identity => simp only [templateText]

theorem toJson_eq (h : v.Twin w) : v.toJson = w.toJson := by
  cases h with
  | same => rfl
  | host h identity =>
    obtain ⟨_, _, _, _, _, _, _, _⟩ := h
    simp only [toJson]

theorem encode_eq (h : v.Twin w) : v.encode = w.encode := by
  rw [encode, encode, h.toJson_eq]

end Twin

end Value

/-! ### Entries and models that differ under hidden names -/

namespace Policy

/-- The same keys in the same order, and the same values under the keys that are not hidden. -/
def AgreeOff (p : Policy) (a b : Entries Value) : Prop :=
  List.Forall₂ (fun x y => x.1 = y.1 ∧ (p.isDenied x.1 = false → x.2 = y.2)) a b

theorem AgreeOff.get?_eq {p : Policy} {a b : Entries Value} (h : p.AgreeOff a b) {key : String}
    (hkey : p.isDenied key = false) : a.get? key = b.get? key := by
  induction h with
  | nil => rfl
  | @cons x y a b hxy _ ih =>
    obtain ⟨k, v⟩ := x
    obtain ⟨l, w⟩ := y
    obtain ⟨rfl, hvalue⟩ := hxy
    rw [Entries.get?_cons, Entries.get?_cons, ih]
    by_cases hk : key = k
    · subst hk
      rw [if_pos rfl, if_pos rfl]
      exact congrArg some (hvalue hkey)
    · rw [if_neg hk, if_neg hk]

theorem agreeOff_refl (p : Policy) (a : Entries Value) : p.AgreeOff a a :=
  List.forall₂_same.mpr fun _ _ => ⟨rfl, fun _ => rfl⟩

theorem agreeOff_insert {p : Policy} {key : String} (hkey : p.isDenied key = true) (v w : Value)
    (a : Entries Value) : p.AgreeOff (a.insert key v) (a.insert key w) := by
  have hcell : key = key ∧ (p.isDenied key = false → v = w) := by
    refine ⟨rfl, fun hno => ?_⟩
    rw [hkey] at hno
    contradiction
  induction a with
  | nil => exact .cons hcell .nil
  | cons e a ih =>
    obtain ⟨k, u⟩ := e
    by_cases hk : k = key
    · subst hk
      simp only [Entries.insert, if_true]
      exact .cons hcell (p.agreeOff_refl a)
    · simp only [Entries.insert, if_neg hk]
      exact .cons ⟨rfl, fun _ => rfl⟩ ih

end Policy

namespace Model

/-- Two models of one class with the same names in the same order that differ under hidden names
alone. -/
structure AgreeOff (m n : Model) (p : Policy) : Prop where
  className : m.className = n.className
  attributes : p.AgreeOff m.attributes n.attributes
  relations : p.AgreeOff m.relations n.relations

/-- Two models of one class that answer alike under the names that are not hidden. -/
structure AnswerAlike (m n : Model) (p : Policy) : Prop where
  className : m.className = n.className
  find : ∀ name, p.isDenied name = false → m.toHost.find? name = n.toHost.find? name

theorem find?_toHost (m : Model) (name : String) :
    m.toHost.find? name = (m.attributes.get? name).or (m.relations.get? name) := by
  simp only [HostObject.find?, HostObject.Strategy.order, List.findSome?, HostObject.ask, toHost]
  cases m.attributes.get? name with
  | some v => rfl
  | none =>
    cases m.relations.get? name with
    | some v => rfl
    | none => rfl

theorem AgreeOff.answerAlike {m n : Model} {p : Policy} (h : m.AgreeOff n p) :
    m.AnswerAlike n p where
  className := h.className
  find := fun name hname => by
    rw [find?_toHost, find?_toHost, h.attributes.get?_eq hname, h.relations.get?_eq hname]

end Model

/-! ### Contexts that answer alike -/

theorem Policy.not_denied_of_checkPath {p : Policy} {path name : String} {rest : List String}
    (h : p.checkPath path = .ok ()) (hpath : Text.splitString '.' path = name :: rest) :
    p.isDenied name = false := by
  rw [Bool.eq_false_iff]
  intro hdenied
  simp [Policy.checkPath, hpath, hdenied] at h

/-- A path of a model may be followed when the class is admitted and the path is not refused. -/
theorem Model.check_eq_ok_iff {m : Model} {p : Policy} {path : String} :
    m.check p path = .ok () ↔ p.admits m.className = true ∧ p.checkPath path = .ok () := by
  rw [Model.check, Policy.checkSource]
  cases p.admits m.className with
  | false => exact ⟨fun h => (nomatch h), fun h => (nomatch h.1)⟩
  | true =>
    cases p.checkPath path with
    | error e => exact ⟨fun h => (nomatch h), fun h => (nomatch h.2)⟩
    | ok _ => exact ⟨fun _ => ⟨rfl, rfl⟩, fun _ => rfl⟩

namespace Model.AnswerAlike

variable {m n : Model} {p : Policy}

theorem check_eq (h : m.AnswerAlike n p) : m.check p = n.check p := by
  funext path
  rw [Model.check, Model.check, h.className]

theorem get_eq (h : m.AnswerAlike n p) : (m.source p).get = (n.source p).get := by
  funext path
  have hcheck := congrFun h.check_eq path
  simp only [source, ← hcheck]
  cases hm : m.check p path with
  | error e => rfl
  | ok _ =>
    obtain ⟨name, rest, hpath⟩ := List.exists_cons_of_ne_nil
      (show Text.splitString '.' path ≠ [] by
        simpa [Text.splitString, Text.splitOn] using Text.splitBy_ne_nil _ path.toList)
    have hname := Policy.not_denied_of_checkPath (Model.check_eq_ok_iff.mp hm).2 hpath
    have hlookup : (Value.host m.toHost).lookup name = (Value.host n.toHost).lookup name := by
      simp only [Value.lookup, h.find name hname]
    simp only [Value.lookupDotted, Value.lookupPath, hpath, List.foldl_cons, hlookup]

end Model.AnswerAlike

namespace Context

/-- Contexts that answer every path, every check and every variable in the same way. -/
structure AnswerAlike (c d : Context) : Prop where
  get : c.source.get = d.source.get
  check : c.source.check = d.source.check
  bindings : c.bindings = d.bindings
  strict : c.strict = d.strict
  expectedHead : c.expectedHead = d.expectedHead

def onModel (c : Context) (m : Model) (p : Policy) : Context :=
  c.withSource (m.source p)

theorem expects_iff {c : Context} {t : Token} :
    c.expects t = true ↔ ∀ head ∈ c.expectedHead, t.head = head := by
  unfold expects
  cases c.expectedHead with
  | none => simp
  | some head => simp

theorem answerAlike_onModel {m n : Model} {p : Policy} (h : m.AnswerAlike n p) (c : Context) :
    (c.onModel m p).AnswerAlike (c.onModel n p) where
  get := h.get_eq
  check := h.check_eq
  bindings := rfl
  strict := rfl
  expectedHead := rfl

end Context

/-! ### Resolvers -/

namespace Resolver

/-- The resolver gives the same outcome in contexts that answer alike. -/
def Discreet (r : Resolver) : Prop :=
  ∀ t c d, c.AnswerAlike d → r.resolve t c = r.resolve t d

theorem discreet_of_source_free {r : Resolver} {f : Token → Except Failure Value}
    (h : ∀ t c, r.resolve t c = f t) : r.Discreet := by
  intro t c d _
  rw [h, h]

theorem follow_eq {c d : Context} (h : c.AnswerAlike d) (path : List String) :
    c.follow path = d.follow path := by
  rw [Context.follow, Context.follow, h.get]

theorem expects_eq {c d : Context} (h : c.AnswerAlike d) (t : Token) :
    c.expects t = d.expects t := by
  rw [Context.expects, Context.expects, h.expectedHead]

theorem variableOrNull_eq {c d : Context} (h : c.AnswerAlike d) (name : String) :
    c.variableOrNull name = d.variableOrNull name := by
  rw [Context.variableOrNull, Context.variableOrNull, h.bindings]

theorem reference_eq {c d : Context} (h : c.AnswerAlike d) (text : String) :
    c.reference text = d.reference text := by
  have hget : c.get text = d.get text := by
    rw [Context.get, Context.get, h.bindings, h.get]
  unfold Context.reference
  simp only [hget, variableOrNull_eq h, follow_eq h]

theorem arguments_eq {c d : Context} (h : c.AnswerAlike d) (t : Token) :
    t.arguments c = t.arguments d := by
  have hstep : Token.lookUpArgument c = Token.lookUpArgument d := by
    funext args i
    unfold Token.lookUpArgument
    simp only [reference_eq h]
  rw [Token.arguments, Token.arguments, hstep]

theorem discreet_model : model.Discreet := by
  intro t c d h
  simp only [model, ofKinds, expects_eq h, follow_eq h]

theorem discreet_relation : relation.Discreet := by
  intro t c d h
  simp only [relation, ofKinds, expects_eq h, follow_eq h]

theorem discreet_table : table.Discreet := by
  intro t c d h
  simp only [table, ofKinds, follow_eq h]

theorem discreet_contextVariable : contextVariable.Discreet := by
  intro t c d h
  have hvariable : c.variableOrNull = d.variableOrNull := funext (variableOrNull_eq h)
  simp only [contextVariable, ofKinds, hvariable]

theorem discreet_nullCoalesce : nullCoalesce.Discreet := by
  intro t c d h
  simp only [nullCoalesce, ofKinds, follow_eq h]

theorem discreet_dynamic : dynamic.Discreet := by
  intro t c d h
  simp only [dynamic, ofKinds, follow_eq h, h.get]

theorem discreet_function (functions : HostFunctions) (formatters : Formatters) :
    (function functions formatters).Discreet := by
  intro t c d h
  simp only [function, ofKinds, arguments_eq h]

theorem discreet_temporal (k : Clock) : (temporal k).Discreet :=
  discreet_of_source_free fun _ _ => rfl

theorem discreet_arithmetic : arithmetic.Discreet :=
  discreet_of_source_free fun _ _ => rfl

end Resolver

/-! ### The walk over the whole structure -/

/-- A walk along the field path starts at something hidden: at the whole model, or at a hidden name
that does not select an element. -/
def Policy.UncoversPath (p : Policy) : List String → Prop
  | [] => p.denied ≠ []
  | name :: _ => p.isDenied name = true ∧ Token.isSelector name = false

/-- The guard of a model of this class lets a walk through that starts at something hidden. -/
structure Token.Uncovers (t : Token) (p : Policy) (className : String)
    (expectedHead : Option String) : Prop where
  kind : t.kind = .collection
  head : ∀ head ∈ expectedHead, t.head = head
  admitted : p.admits className = true
  allowed : p.checkPath (Text.join "." t.fieldPath) = .ok ()
  start : p.UncoversPath t.fieldPath

namespace Value

theorem collectionWalk_null (path : List String) : null.collectionWalk path = null := by
  cases path <;> rfl

theorem collectionWalk_nil (v : Value) : v.collectionWalk [] = v := by
  rw [collectionWalk]

theorem collectionWalk_cons {v : Value} (hv : v ≠ null) (name : String) (rest : List String) :
    v.collectionWalk (name :: rest) =
      if name = "*" then v.eachElement rest else (v.collectionStep name).collectionWalk rest := by
  rw [collectionWalk]
  exact hv

theorem collectionWalk_selector (m : Model) {name : String}
    (hname : Token.isSelector name = true) (rest : List String) :
    (host m.toHost).collectionWalk (name :: rest) = if name = "*" then array [] else null := by
  rw [collectionWalk_cons Value.noConfusion]
  by_cases hstar : name = "*"
  · rw [if_pos hstar, if_pos hstar]
    rfl
  · have hstep : (host m.toHost).collectionStep name = null := by
      unfold collectionStep
      by_cases hfirst : name = "first"
      · rw [if_pos hfirst]
        rfl
      · by_cases hlast : name = "last"
        · rw [if_neg hfirst, if_pos hlast]
          rfl
        · have hnumeral : Number.isNumeral name.toList = true := by
            simpa [Token.isSelector, hstar, hfirst, hlast] using hname
          rw [if_neg hfirst, if_neg hlast, if_pos hnumeral]
          rfl
    rw [if_neg hstar, if_neg hstar, hstep, collectionWalk_null]

theorem collectionStep_of_not_selector {name : String} (hname : Token.isSelector name = false)
    (v : Value) : v.collectionStep name = v.lookup name ∧ name ≠ "*" := by
  simp only [Token.isSelector, Bool.or_eq_false_iff, beq_eq_false_iff_ne] at hname
  obtain ⟨⟨⟨hnumeral, hstar⟩, hfirst⟩, hlast⟩ := hname
  refine ⟨?_, hstar⟩
  rw [collectionStep, if_neg hfirst, if_neg hlast, if_neg (by rw [hnumeral]; decide)]

theorem collectionWalk_lookup (h : HostObject Value) {name : String}
    (hname : Token.isSelector name = false) (rest : List String) :
    (host h).collectionWalk (name :: rest) = (ofOption (h.find? name)).collectionWalk rest := by
  obtain ⟨hstep, hstar⟩ := collectionStep_of_not_selector hname (host h)
  rw [collectionWalk_cons Value.noConfusion, if_neg hstar, hstep]
  rfl

end Value

theorem Policy.isDenied_of_denied_nil {p : Policy} (h : p.denied = []) (name : String) :
    p.isDenied name = false := by
  rw [Policy.isDenied, h]
  rfl

theorem Policy.UncoversPath.denied_ne_nil {p : Policy} {path : List String}
    (h : p.UncoversPath path) : p.denied ≠ [] := by
  cases path with
  | nil => exact h
  | cons name rest =>
    intro hnil
    have hshown := Policy.isDenied_of_denied_nil hnil name
    rw [h.1] at hshown
    contradiction

theorem Model.AgreeOff.twin {m n : Model} {p : Policy} (h : m.AgreeOff n p) (hp : p.denied = []) :
    (Value.host m.toHost).Twin (.host n.toHost) := by
  have heq : ∀ {a b : Entries Value}, p.AgreeOff a b → a = b := by
    intro a b hab
    refine List.forall₂_eq_eq_eq ▸ List.Forall₂.imp ?_ hab
    intro x y hxy
    exact Prod.ext hxy.1 (hxy.2 (p.isDenied_of_denied_nil hp x.1))
  obtain ⟨i, class₁, attributes₁, relations₁⟩ := m
  obtain ⟨j, class₂, attributes₂, relations₂⟩ := n
  obtain ⟨hclass, hattributes, hrelations⟩ := h
  cases hclass
  cases heq hattributes
  cases heq hrelations
  exact .host _ j

/-- A walk that starts at nothing hidden leads to the same in models that answer alike, if these
are one up to their identities where nothing is hidden at all. -/
theorem Model.AnswerAlike.walk_twin {m n : Model} {p : Policy} (h : m.AnswerAlike n p)
    (hwhole : p.denied = [] → (Value.host m.toHost).Twin (.host n.toHost)) {path : List String}
    (hpath : ¬ p.UncoversPath path) :
    ((Value.host m.toHost).collectionWalk path).Twin ((Value.host n.toHost).collectionWalk path) := by
  cases path with
  | nil => exact hwhole (not_not.mp hpath)
  | cons name rest =>
    cases hname : Token.isSelector name with
    | true =>
      rw [Value.collectionWalk_selector m hname, Value.collectionWalk_selector n hname]
      exact .same _
    | false =>
      have hshown : p.isDenied name = false := by
        rw [Bool.eq_false_iff]
        exact fun hdenied => hpath ⟨hdenied, hname⟩
      rw [Value.collectionWalk_lookup _ hname, Value.collectionWalk_lookup _ hname,
        h.find name hshown]
      exact .same _

/-! ### The pipeline of every kind of placeholder -/

namespace Resolver

/-- What the resolver of collections gives where the guard lets the walk through. -/
theorem resolve_collection {t : Token} {c : Context} (hhead : c.expects t = true)
    (hcheck : c.source.check (Text.join "." t.fieldPath) = .ok ()) :
    collection.resolve t c = .ok (c.source.raw.collectionWalk t.fieldPath) := by
  simp only [collection, ofKinds, hhead, hcheck, Bool.not_true, Bool.false_eq_true, if_false]
  rfl

/-- Over two models that answer alike the resolver of collections gives up on the same tokens. -/
theorem collection_outcome {m n : Model} {p : Policy} (h : m.AnswerAlike n p) (t : Token)
    (c : Context) :
    collection.resolve t (c.onModel m p) = collection.resolve t (c.onModel n p) ∨
      c.expects t = true ∧ m.check p (Text.join "." t.fieldPath) = .ok () := by
  have halike := Context.answerAlike_onModel h c
  have hexpects : (c.onModel m p).expects t = c.expects t := rfl
  have hexpects' : (c.onModel n p).expects t = c.expects t := rfl
  have hcheck : (c.onModel m p).source.check = m.check p := rfl
  have hcheck' : (c.onModel n p).source.check = m.check p := h.check_eq.symm
  simp only [collection, ofKinds, hexpects, hexpects', hcheck, hcheck']
  cases hhead : c.expects t with
  | false => exact Or.inl rfl
  | true =>
    cases hallowed : m.check p (Text.join "." t.fieldPath) with
    | error e => exact Or.inl rfl
    | ok _ => exact Or.inr ⟨rfl, rfl⟩

end Resolver

namespace Pipeline

variable {k : Clock} {functions : HostFunctions} {formatters : Formatters}

/-- The default resolvers with those of arithmetic and of calls. -/
def standardResolvers (k : Clock) (functions : HostFunctions) (formatters : Formatters) :
    List Resolver :=
  Resolver.defaults k ++ [Resolver.arithmetic, Resolver.function functions formatters]

/-- The default pipeline with the resolvers of arithmetic and of calls. -/
def standard (k : Clock) (functions : HostFunctions) (formatters : Formatters) : Pipeline :=
  ofList (standardResolvers k functions formatters)

theorem mem_standard {r : Resolver} :
    r ∈ (standard k functions formatters).resolvers ↔
      r ∈ standardResolvers k functions formatters :=
  List.mem_mergeSort

theorem supports_standard {r : Resolver} (h : r ∈ standardResolvers k functions formatters)
    (t : Token) (c d : Context) : r.supports t c = r.supports t d := by
  simp only [standardResolvers, Resolver.defaults, List.cons_append, List.nil_append,
    List.mem_cons, List.not_mem_nil, or_false] at h
  rcases h with rfl | rfl | rfl | rfl | rfl | rfl | rfl | rfl | rfl | rfl <;> rfl

theorem discreet_standard {r : Resolver} (h : r ∈ standardResolvers k functions formatters) :
    r = Resolver.collection ∨ r.Discreet ∧ ∀ t c, r.supports t c = true → t.kind ≠ .collection := by
  simp only [standardResolvers, Resolver.defaults, List.cons_append, List.nil_append,
    List.mem_cons, List.not_mem_nil, or_false] at h
  have hkinds : ∀ (name : String) (priority : Int) (kind : TokenKind)
      (f : Token → Context → Except Failure Value), kind ≠ .collection →
      ∀ t c, (Resolver.ofKinds name priority [kind] f).supports t c = true →
        t.kind ≠ .collection := by
    intro name priority kind f hkind t c hsupports hcollection
    simp only [Resolver.ofKinds, List.contains_cons, List.contains_nil, Bool.or_false, beq_iff_eq,
      hcollection] at hsupports
    exact hkind hsupports.symm
  rcases h with rfl | rfl | rfl | rfl | rfl | rfl | rfl | rfl | rfl | rfl
  · exact Or.inr ⟨Resolver.discreet_temporal k, hkinds _ _ _ _ (by decide)⟩
  · exact Or.inr ⟨Resolver.discreet_nullCoalesce, hkinds _ _ _ _ (by decide)⟩
  · exact Or.inr ⟨Resolver.discreet_contextVariable, hkinds _ _ _ _ (by decide)⟩
  · exact Or.inr ⟨Resolver.discreet_dynamic, hkinds _ _ _ _ (by decide)⟩
  · exact Or.inl rfl
  · exact Or.inr ⟨Resolver.discreet_relation, hkinds _ _ _ _ (by decide)⟩
  · exact Or.inr ⟨Resolver.discreet_model, hkinds _ _ _ _ (by decide)⟩
  · exact Or.inr ⟨Resolver.discreet_table, hkinds _ _ _ _ (by decide)⟩
  · exact Or.inr ⟨Resolver.discreet_arithmetic, hkinds _ _ _ _ (by decide)⟩
  · exact Or.inr ⟨Resolver.discreet_function functions formatters, hkinds _ _ _ _ (by decide)⟩

theorem resolverFor?_standard (t : Token) (c d : Context) :
    (standard k functions formatters).resolverFor? t c =
      (standard k functions formatters).resolverFor? t d := by
  unfold resolverFor?
  refine List.find?_congr fun r hr => ?_
  exact supports_standard (mem_standard.mp hr) t c d

/-- At most one of these resolvers takes a token. -/
theorem eq_of_supports_standard {r s : Resolver} (hr : r ∈ standardResolvers k functions formatters)
    (hs : s ∈ standardResolvers k functions formatters) {t : Token} {c : Context}
    (hrt : r.supports t c = true) (hst : s.supports t c = true) : r = s := by
  have hapart : (standardResolvers k functions formatters).Pairwise fun a b =>
      ¬ (a.supports t c = true ∧ b.supports t c = true) := by
    obtain ⟨raw, kind, path, function, args, default, metadata⟩ := t
    cases kind <;>
      simp [standardResolvers, Resolver.defaults, Resolver.temporal, Resolver.nullCoalesce,
        Resolver.contextVariable, Resolver.dynamic, Resolver.collection, Resolver.relation,
        Resolver.model, Resolver.table, Resolver.arithmetic, Resolver.function, Resolver.ofKinds]
  have hsymm : Std.Symm fun a b : Resolver => ¬ (a.supports t c = true ∧ b.supports t c = true) :=
    ⟨fun _ _ h hba => h hba.symm⟩
  by_contra hne
  exact hapart.forall hr hs hne ⟨hrt, hst⟩

theorem resolve_standard {r : Resolver} (hr : r ∈ standardResolvers k functions formatters)
    {t : Token} {c : Context} (ht : r.supports t c = true) :
    (standard k functions formatters).resolve t c = r.resolve t c := by
  unfold resolve
  cases hfind : (standard k functions formatters).resolverFor? t c with
  | none => exact absurd ht (List.find?_eq_none.mp hfind r (mem_standard.mpr hr))
  | some s =>
    have hs := mem_standard.mp (List.mem_of_find?_eq_some hfind)
    have htakes : s.supports t c = true :=
      List.find?_some (p := fun s : Resolver => s.supports t c) hfind
    rw [eq_of_supports_standard hr hs ht htakes]

theorem resolve_standard_collection {t : Token} (ht : t.kind = .collection) (c : Context) :
    (standard k functions formatters).resolve t c = Resolver.collection.resolve t c := by
  refine resolve_standard (by simp [standardResolvers, Resolver.defaults]) ?_
  simp [Resolver.collection, Resolver.ofKinds, ht]

theorem resolve_standard_of_ne {t : Token} (ht : t.kind ≠ .collection) {c d : Context}
    (h : c.AnswerAlike d) :
    (standard k functions formatters).resolve t c =
      (standard k functions formatters).resolve t d := by
  unfold resolve
  rw [resolverFor?_standard t c d]
  cases hfind : (standard k functions formatters).resolverFor? t d with
  | none => rfl
  | some r =>
    have hr := mem_standard.mp (List.mem_of_find?_eq_some hfind)
    have htakes : r.supports t d = true :=
      List.find?_some (p := fun r : Resolver => r.supports t d) hfind
    rcases discreet_standard hr with rfl | ⟨hdiscreet, -⟩
    · simp only [Resolver.collection, Resolver.ofKinds, List.contains_cons, List.contains_nil,
        Bool.or_false, beq_iff_eq] at htakes
      exact absurd htakes ht
    · exact hdiscreet t c d h

/-- Over models that answer alike a token has one outcome, up to what the walk of a collection that
the guard lets through leads to. -/
theorem resolve_standard_of_walk {R : Value → Value → Prop} (hR : ∀ v, R v v) {m n : Model}
    {p : Policy} (h : m.AnswerAlike n p) {t : Token} {c : Context}
    (hwalk : t.kind = .collection → c.expects t = true →
      m.check p (Text.join "." t.fieldPath) = .ok () →
      R ((Value.host m.toHost).collectionWalk t.fieldPath)
        ((Value.host n.toHost).collectionWalk t.fieldPath)) :
    Matches R ((standard k functions formatters).resolve t (c.onModel m p))
      ((standard k functions formatters).resolve t (c.onModel n p)) := by
  by_cases ht : t.kind = .collection
  · rw [resolve_standard_collection ht, resolve_standard_collection ht]
    rcases Resolver.collection_outcome h t c with heq | ⟨hhead, hcheck⟩
    · exact Matches.of_eq hR heq
    · have hcheck' : n.check p (Text.join "." t.fieldPath) = .ok () := h.check_eq ▸ hcheck
      rw [Resolver.resolve_collection (c := c.onModel m p) hhead hcheck,
        Resolver.resolve_collection (c := c.onModel n p) hhead hcheck']
      exact .ok (hwalk ht hhead hcheck)
  · exact Matches.of_eq hR (resolve_standard_of_ne ht (Context.answerAlike_onModel h c))

theorem resolve_standard_matches {m n : Model} {p : Policy} (h : m.AnswerAlike n p) (t : Token)
    (c : Context) :
    Matches (fun _ _ => True) ((standard k functions formatters).resolve t (c.onModel m p))
      ((standard k functions formatters).resolve t (c.onModel n p)) :=
  resolve_standard_of_walk (fun _ => trivial) h fun _ _ _ => trivial

/-- A token that uncovers nothing has the same value over models that answer alike. -/
theorem resolve_standard_twin {m n : Model} {p : Policy} (h : m.AnswerAlike n p)
    (hwhole : p.denied = [] → (Value.host m.toHost).Twin (.host n.toHost)) {t : Token}
    {c : Context} (ht : ¬ t.Uncovers p m.className c.expectedHead) :
    Matches Value.Twin ((standard k functions formatters).resolve t (c.onModel m p))
      ((standard k functions formatters).resolve t (c.onModel n p)) := by
  refine resolve_standard_of_walk Value.Twin.same h fun hkind hhead hcheck => ?_
  obtain ⟨hadmitted, hallowed⟩ := Model.check_eq_ok_iff.mp hcheck
  refine h.walk_twin hwhole fun hstart => ?_
  exact ht ⟨hkind, Context.expects_iff.mp hhead, hadmitted, hallowed, hstart⟩

theorem resolve_standard_of_uncovers {m : Model} {p : Policy} {t : Token} {c : Context}
    (h : t.Uncovers p m.className c.expectedHead) :
    (standard k functions formatters).resolve t (c.onModel m p) =
      .ok ((Value.host m.toHost).collectionWalk t.fieldPath) := by
  have hcheck : m.check p (Text.join "." t.fieldPath) = .ok () :=
    Model.check_eq_ok_iff.mpr ⟨h.admitted, h.allowed⟩
  rw [resolve_standard_collection h.kind,
    Resolver.resolve_collection (c := c.onModel m p) (Context.expects_iff.mpr h.head) hcheck]
  rfl

end Pipeline

end Placeholder
