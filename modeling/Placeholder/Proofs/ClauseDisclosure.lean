import Mathlib
import Placeholder.Clause.Resolution
import Placeholder.Proofs.Blame
import Placeholder.Proofs.PlantedValues
import Placeholder.Proofs.WrittenClause

/-!
# What a clause discloses

A declaration that uncovers something hidden tells it by its outcome, unless its value is the whole
model and its condition admits every model. Then the statement alone may tell, if it refers to the
declaration. A clause keeps what is hidden exactly when none of this happens over any model of the
class.
-/

namespace Placeholder

/-! ### Conditions -/

namespace Value

theorem decode_ne_host (cs : List Char) (h : HostObject Value) : Argument.decode cs ≠ .host h := by
  unfold Argument.decode
  cases Argument.unquote? cs with
  | some text => exact fun heq => by cases heq
  | none =>
    cases Number.readScalar? cs with
    | some n => cases n <;> exact fun heq => by cases heq
    | none =>
      unfold Argument.keyword?
      simp only
      split_ifs <;> exact fun heq => by cases heq

theorem looseEq_decode_host (h h' : HostObject Value) (cs : List Char) :
    (host h).looseEq (Argument.decode cs) = (host h').looseEq (Argument.decode cs) := by
  have hno := decode_ne_host cs
  generalize Argument.decode cs = x at hno
  cases x with
  | host other => exact absurd rfl (hno other)
  | _ => simp [looseEq, isTruthy]

theorem strictEq_decode_host (h h' : HostObject Value) (cs : List Char) :
    (host h).strictEq (Argument.decode cs) = (host h').strictEq (Argument.decode cs) := by
  have hno := decode_ne_host cs
  generalize Argument.decode cs = x at hno
  cases x with
  | host other => exact absurd rfl (hno other)
  | _ => simp [strictEq]

theorem Twin.statementText_eq {v w : Value} (h : v.Twin w) :
    Clause.statementText v = Clause.statementText w := by
  cases h with
  | same => rfl
  | host h identity => exact (Twin.host h identity).encode_eq

end Value

namespace Clause

theorem Requirement.holds_host (r : Requirement) (h h' : HostObject Value) :
    r.holds (.host h) = r.holds (.host h') := by
  have hscalar : (Value.host h).toScalar = (Value.host h').toScalar := rfl
  cases r with
  | between low high => simp only [holds, hscalar]
  | comparison operator operand =>
    simp only [holds, compares, hscalar, Value.looseEq_decode_host h h',
      Value.strictEq_decode_host h h']

theorem require_twin {v w : Value} (h : v.Twin w) (name condition expression : String) :
    require name v condition expression = require name w condition expression := by
  cases h with
  | same => rfl
  | host h identity =>
    have hencode := (Value.Twin.host h identity).encode_eq
    simp only [require, Requirement.holds_host _ h { h with identity }, hencode]

def Declaration.token? (d : Declaration) : Option Token :=
  ((Template.parse d.expression).toOption.getD []).head?

def Declaration.accept (d : Declaration) (v : Value) : Except Failure Value :=
  match d.condition with
  | none => .ok v
  | some condition => do
    (require d.name v condition d.expression).mapError Failure.resolution
    .ok v

/-- What a declaration makes of the outcome of its token. -/
def Declaration.settle (d : Declaration) (outcome : Except Failure Value) : Except Failure Value :=
  match outcome with
  | .error (.resolution (.unresolvable raw kind)) => .error (notResolved d (.unresolvable raw kind))
  | .error e => .error e
  | .ok .null => .error (notResolved d .null)
  | .ok v => d.accept v

theorem Declaration.resolve_eq_settle {d : Declaration} {t : Token} (ht : d.token? = some t)
    (p : Pipeline) (c : Context) : d.resolve p c = d.settle (p.resolve t c) := by
  unfold Declaration.resolve
  unfold Declaration.token? at ht
  cases hparse : Template.parse d.expression with
  | error e =>
    rw [hparse] at ht
    cases ht
  | ok tokens =>
    rw [hparse] at ht
    cases tokens with
    | nil => cases ht
    | cons u rest =>
      cases ht
      rfl

theorem Declaration.resolve_of_no_token {d : Declaration} (ht : d.token? = none) (p : Pipeline)
    (c c' : Context) : d.resolve p c = d.resolve p c' := by
  unfold Declaration.resolve
  unfold Declaration.token? at ht
  cases hparse : Template.parse d.expression with
  | error e => rfl
  | ok tokens =>
    rw [hparse] at ht
    cases tokens with
    | nil => rfl
    | cons u rest => cases ht

theorem Declaration.accept_twin (d : Declaration) {v w : Value} (h : v.Twin w) :
    Matches Value.Twin (d.accept v) (d.accept w) := by
  unfold Declaration.accept
  cases d.condition with
  | none => exact .ok h
  | some condition =>
    simp only [require_twin h]
    exact (Matches.of_eq (R := Eq) (fun _ => rfl) rfl).bind fun _ _ _ => .ok h

theorem Declaration.settle_twin (d : Declaration) {x y : Except Failure Value}
    (h : Matches Value.Twin x y) : Matches Value.Twin (d.settle x) (d.settle y) := by
  cases h with
  | error e => exact Matches.of_eq Value.Twin.same rfl
  | ok hvw =>
    cases hvw with
    | same v => exact Matches.of_eq Value.Twin.same rfl
    | host h identity => exact d.accept_twin (.host h identity)

theorem Declaration.resolve_twin {d : Declaration} {p : Pipeline} {c c' : Context}
    (h : ∀ t ∈ d.token?, Matches Value.Twin (p.resolve t c) (p.resolve t c')) :
    Matches Value.Twin (d.resolve p c) (d.resolve p c') := by
  cases ht : d.token? with
  | none => exact Matches.of_eq Value.Twin.same (d.resolve_of_no_token ht p c c')
  | some t =>
    rw [Declaration.resolve_eq_settle ht, Declaration.resolve_eq_settle ht]
    exact d.settle_twin (h t ht)

theorem resolve_of_read {template : String} {clause : Clause} (h : read template = .ok clause)
    (p : Pipeline) (c : Context) :
    resolve p template c =
      (resolveAll p c clause.declarations).map (substitute clause.statement) := by
  unfold resolve resolveDetailed
  rw [h]
  cases hvalues : resolveAll p c clause.declarations <;>
    simp only [Except.mapError, bind, Except.bind, hvalues, Except.map]

theorem resolve_of_malformed {template : String} {e : ClauseError} (h : read template = .error e)
    (p : Pipeline) (c : Context) : resolve p template c = .error (.clause e) := by
  unfold resolve resolveDetailed
  rw [h]
  rfl

theorem resolveAll_cons_eq_ok {p : Pipeline} {c : Context} {d : Declaration}
    {ds : List Declaration} {vs : Entries Value} :
    resolveAll p c (d :: ds) = .ok vs ↔
      ∃ v us, d.resolve p c = .ok v ∧ resolveAll p c ds = .ok us ∧ (d.name, v) :: us = vs := by
  rw [resolveAll]
  constructor
  · intro h
    cases hd : d.resolve p c with
    | error e =>
      rw [hd] at h
      cases h
    | ok v =>
      cases hds : resolveAll p c ds with
      | error e =>
        rw [hd, hds] at h
        cases h
      | ok us =>
        rw [hd, hds] at h
        exact ⟨v, us, rfl, rfl, Except.ok.inj h⟩
  · rintro ⟨v, us, hd, hds, rfl⟩
    rw [hd, hds]
    rfl

theorem resolveAll_cons_eq_error {p : Pipeline} {c : Context} {d : Declaration}
    {ds : List Declaration} {e : Failure} :
    resolveAll p c (d :: ds) = .error e ↔
      d.resolve p c = .error e ∨ (∃ v, d.resolve p c = .ok v) ∧ resolveAll p c ds = .error e := by
  rw [resolveAll]
  cases hd : d.resolve p c with
  | error e' => simp [bind, Except.bind]
  | ok v => cases hds : resolveAll p c ds <;> simp [bind, Except.bind]

/-! ### Declarations that tell -/

namespace Declaration

def AdmitsHosts (d : Declaration) : Prop :=
  ∀ h : HostObject Value, d.accept (.host h) = .ok (.host h)

theorem accept_host (d : Declaration) :
    d.AdmitsHosts ∨ ∃ text, ∀ h : HostObject Value, d.accept (.host h) =
      .error (.resolution (.conditionNotMet d.name (Value.host h).encode text d.expression)) := by
  unfold AdmitsHosts accept
  cases d.condition with
  | none => exact Or.inl fun h => rfl
  | some condition =>
    simp only [require]
    cases Requirement.read? (Text.trim condition.toList) with
    | none => exact Or.inl fun h => rfl
    | some r =>
      by_cases hall : ∀ h, r.holds (.host h) = true
      · left
        intro h
        simp only [hall h, if_true]
        rfl
      · right
        obtain ⟨h₀, hrefused⟩ := not_forall.mp hall
        refine ⟨r.text, fun h => ?_⟩
        have hrefused' : r.holds (.host h) = false := by
          rw [r.holds_host h h₀]
          simpa using hrefused
        simp only [hrefused', Bool.false_eq_true, if_false]
        rfl

/-- The value of the declaration is the whole model, whatever is stored in it. -/
def Carries (d : Declaration) (p : Policy) (className : String) (expectedHead : Option String) :
    Prop :=
  ∃ t ∈ d.token?, t.Uncovers p className expectedHead ∧ t.fieldPath = [] ∧ d.AdmitsHosts

/-- The declaration uncovers something hidden, and its outcome depends on it. -/
def Tells (d : Declaration) (p : Policy) (className : String) (expectedHead : Option String) :
    Prop :=
  ∃ t ∈ d.token?, t.Uncovers p className expectedHead ∧ (t.fieldPath = [] → ¬ d.AdmitsHosts)

theorem Carries.denied_ne_nil {d : Declaration} {p : Policy} {className : String}
    {head : Option String} (h : d.Carries p className head) : p.denied ≠ [] := by
  obtain ⟨t, -, hcover, -⟩ := h
  exact hcover.start.denied_ne_nil

theorem Tells.denied_ne_nil {d : Declaration} {p : Policy} {className : String}
    {head : Option String} (h : d.Tells p className head) : p.denied ≠ [] := by
  obtain ⟨t, -, hcover, -⟩ := h
  exact hcover.start.denied_ne_nil

end Declaration

section Outcomes

variable {pl : Pipeline} (hpl : pl.IsStandard) {p : Policy} {c : Context} {m n : Model}
  {d : Declaration}
include hpl

theorem Declaration.resolve_of_carries (h : d.Carries p m.className c.expectedHead) :
    d.resolve pl (c.onModel m p) = .ok (.host m.toHost) := by
  obtain ⟨t, ht, hcover, hpath, hadmits⟩ := h
  rw [resolve_eq_settle ht, hpl.resolve_of_uncovers hcover, hpath, Value.collectionWalk_nil]
  exact hadmits m.toHost

/-- What a declaration that does not tell gives over models that answer alike: twins, or the whole
models. -/
theorem Declaration.resolve_alike (h : m.AnswerAlike n p)
    (hwhole : p.denied = [] → (Value.host m.toHost).Twin (.host n.toHost))
    (hd : ¬ d.Tells p m.className c.expectedHead) :
    Matches (fun v w => v.Twin w ∨ d.Carries p m.className c.expectedHead ∧
        v = .host m.toHost ∧ w = .host n.toHost)
      (d.resolve pl (c.onModel m p))
      (d.resolve pl (c.onModel n p)) := by
  by_cases hcarries : d.Carries p m.className c.expectedHead
  · have hcarries' : d.Carries p n.className c.expectedHead := h.className ▸ hcarries
    rw [resolve_of_carries hpl hcarries, resolve_of_carries hpl hcarries']
    exact .ok (Or.inr ⟨hcarries, rfl, rfl⟩)
  · refine (resolve_twin fun t ht => ?_).mono fun v w hvw => Or.inl hvw
    refine hpl.resolve_twin h hwhole fun hcover => ?_
    by_cases hsilent : t.fieldPath = [] ∧ d.AdmitsHosts
    · exact hcarries ⟨t, ht, hcover, hsilent⟩
    · exact hd ⟨t, ht, hcover, not_and.mp hsilent⟩

/-- Values under the same names: twins, or the whole models where the name may carry them. -/
def Alike (Hidden : String → Prop) (v₀ w₀ : Value) (a b : Entries Value) : Prop :=
  List.Forall₂ (fun x y => x.1 = y.1 ∧ (x.2.Twin y.2 ∨ Hidden x.1 ∧ x.2 = v₀ ∧ y.2 = w₀)) a b

/-- Where no declaration that tells is reached, the declarations fail alike or have values alike. -/
theorem resolveAll_alike (h : m.AnswerAlike n p)
    (hwhole : p.denied = [] → (Value.host m.toHost).Twin (.host n.toHost)) (Hidden : String → Prop)
    {ds : List Declaration}
    (hhidden : ∀ d ∈ ds, d.Carries p m.className c.expectedHead → Hidden d.name)
    (hreach : ∀ before d after, ds = before ++ d :: after → d.Tells p m.className c.expectedHead →
      ∀ vs, resolveAll pl (c.onModel m p) before ≠ .ok vs) :
    Matches (Alike Hidden (.host m.toHost) (.host n.toHost))
      (resolveAll pl (c.onModel m p) ds)
      (resolveAll pl (c.onModel n p) ds) := by
  induction ds with
  | nil => exact .ok .nil
  | cons d ds ih =>
    have hd : ¬ d.Tells p m.className c.expectedHead :=
      fun htells => hreach [] d ds rfl htells [] rfl
    have hfirst := Declaration.resolve_alike hpl h hwhole hd
    rw [resolveAll, resolveAll]
    generalize hx : d.resolve pl (c.onModel m p) = x at hfirst ⊢
    generalize d.resolve pl (c.onModel n p) = y at hfirst ⊢
    cases hfirst with
    | error e => exact .error e
    | @ok v w hvw =>
      have hothers := ih (fun e he => hhidden e (List.mem_cons_of_mem d he)) (by
        intro before e after heq htells vs hvs
        refine hreach (d :: before) e after (by rw [heq, List.cons_append]) htells
          ((d.name, v) :: vs) ?_
        exact resolveAll_cons_eq_ok.mpr ⟨v, vs, hx, hvs, rfl⟩)
      refine hothers.bind fun a b hab => .ok (.cons ⟨rfl, ?_⟩ hab)
      exact hvw.imp_right fun hmodels => ⟨hhidden d List.mem_cons_self hmodels.1, hmodels.2⟩

/-- What is reached over one model is reached over every model that answers alike. -/
theorem exists_resolveAll (h : m.AnswerAlike n p) (hp : p.denied ≠ []) {ds : List Declaration}
    (hreach : ∀ before d after, ds = before ++ d :: after → d.Tells p m.className c.expectedHead →
      ∀ vs, resolveAll pl (c.onModel m p) before ≠ .ok vs) {vs : Entries Value}
    (hvs : resolveAll pl (c.onModel m p) ds = .ok vs) :
    ∃ us, resolveAll pl (c.onModel n p) ds = .ok us := by
  have halike := resolveAll_alike hpl h (fun hnil => absurd hnil hp) (fun _ => True)
    (fun _ _ _ => trivial) hreach
  rw [hvs] at halike
  generalize resolveAll pl (c.onModel n p) ds = x at halike ⊢
  cases halike with
  | @ok _ us _ => exact ⟨us, rfl⟩

end Outcomes

/-! ### Statements -/

section Statements

variable {Hidden : String → Prop} {v₀ w₀ : Value} {a b : Entries Value} {statement : String}

theorem Alike.get? (h : Alike Hidden v₀ w₀ a b) (key : String) :
    a.get? key = none ∧ b.get? key = none ∨
      ∃ v w, a.get? key = some v ∧ b.get? key = some w ∧
        (v.Twin w ∨ Hidden key ∧ v = v₀ ∧ w = w₀) := by
  induction h with
  | nil => exact Or.inl ⟨rfl, rfl⟩
  | @cons x y a b hxy _ ih =>
    obtain ⟨name, v⟩ := x
    obtain ⟨other, w⟩ := y
    obtain ⟨rfl, hvw⟩ := hxy
    rw [Entries.get?_cons, Entries.get?_cons]
    by_cases hkey : key = name
    · subst hkey
      rw [if_pos rfl, if_pos rfl]
      exact Or.inr ⟨v, w, rfl, rfl, hvw⟩
    · rw [if_neg hkey, if_neg hkey]
      exact ih

theorem mem_referenceNames {name : List Char} :
    name ∈ referenceNames statement ↔ .reference name ∈ pieces statement.toList := by
  unfold referenceNames
  rw [List.mem_filterMap]
  constructor
  · rintro ⟨piece, hmem, hpiece⟩
    cases piece with
    | char c => cases hpiece
    | reference other =>
      cases hpiece
      exact hmem
  · exact fun hmem => ⟨.reference name, hmem, rfl⟩

/-- A statement without references to what carries a model is the same for both. -/
theorem substitute_alike (h : Alike Hidden v₀ w₀ a b)
    (hnames : ∀ name ∈ referenceNames statement, ¬ Hidden (String.ofList name)) :
    substitute statement a = substitute statement b := by
  have hpieces : ∀ piece ∈ pieces statement.toList,
      substitutePiece a piece = substitutePiece b piece := by
    intro piece hpiece
    cases piece with
    | char c => rfl
    | reference name =>
      rcases h.get? (String.ofList name) with ⟨ha, hb⟩ | ⟨v, w, ha, hb, htwin | ⟨hhidden, -⟩⟩
      · simp only [substitutePiece, ha, hb]
      · simp only [substitutePiece, ha, hb, htwin.statementText_eq]
      · exact absurd hhidden (hnames name (mem_referenceNames.mpr hpiece))
  rw [substitute, substitute, List.flatMap_congr hpieces]

/-- A statement that refers to what carries a model grows with the text of the model. -/
theorem length_substitute_lt (h : Alike Hidden v₀ w₀ a b)
    (hlt : (statementText v₀).toList.length < (statementText w₀).toList.length) {name : List Char}
    (hname : name ∈ referenceNames statement) (hv : a.get? (String.ofList name) = some v₀)
    (hw : b.get? (String.ofList name) = some w₀) :
    (substitute statement a).toList.length < (substitute statement b).toList.length := by
  have hpieces : ∀ piece, (substitutePiece a piece).length ≤ (substitutePiece b piece).length := by
    intro piece
    cases piece with
    | char c => exact le_rfl
    | reference other =>
      rcases h.get? (String.ofList other) with ⟨ha, hb⟩ | ⟨v, w, ha, hb, htwin | ⟨-, rfl, rfl⟩⟩
      · simp only [substitutePiece, ha, hb, le_refl]
      · simp only [substitutePiece, ha, hb, htwin.statementText_eq, le_refl]
      · simp only [substitutePiece, ha, hb]
        exact hlt.le
  have hpiece : (substitutePiece a (.reference name)).length <
      (substitutePiece b (.reference name)).length := by
    simpa only [substitutePiece, hv, hw] using hlt
  rw [substitute, substitute, String.toList_ofList, String.toList_ofList, List.length_flatMap,
    List.length_flatMap]
  exact List.sum_lt_sum _ _ (fun piece _ => hpieces piece)
    ⟨.reference name, mem_referenceNames.mp hname, hpiece⟩

end Statements

/-! ### Which declaration fails -/

theorem Declaration.blamed_of_accept {d : Declaration} {v : Value} {e : Failure}
    (h : d.accept v = .error e) : ∃ value text,
      e = .resolution (.conditionNotMet d.name value text d.expression) := by
  unfold accept at h
  cases hcondition : d.condition with
  | none =>
    rw [hcondition] at h
    cases h
  | some condition =>
    rw [hcondition] at h
    simp only [require] at h
    cases hread : Requirement.read? (Text.trim condition.toList) with
    | none =>
      rw [hread] at h
      cases h
    | some r =>
      rw [hread] at h
      cases hholds : r.holds v with
      | true =>
        simp only [hholds, if_true] at h
        cases h
      | false =>
        simp only [hholds, Bool.false_eq_true, if_false] at h
        cases h
        exact ⟨_, _, rfl⟩

theorem Declaration.eq_null_of_settle {d : Declaration} {v : Value}
    (h : d.settle (.ok v) = .error (notResolved d .null)) : v = .null := by
  unfold settle at h
  split at h
  · rename_i hx
    cases hx
  · rename_i hx
    cases hx
  · rename_i hx
    exact Except.ok.inj hx
  · obtain ⟨value, text, hblamed⟩ := blamed_of_accept h
    cases hblamed

section Blame

variable {pl : Pipeline} (hpl : pl.IsStandard) {p : Policy} {c : Context} {m : Model}
include hpl

theorem Declaration.blamed_of_resolve {d : Declaration} {e : Failure}
    (h : d.resolve pl (c.onModel m p) = .error e) :
    e.blamed? = none ∨ e.blamed? = some d.name := by
  cases ht : d.token? with
  | none =>
    unfold resolve at h
    unfold token? at ht
    cases hparse : Template.parse d.expression with
    | error e =>
      rw [hparse] at h
      cases h
      exact Or.inl rfl
    | ok tokens =>
      rw [hparse] at h ht
      cases tokens with
      | nil =>
        cases h
        exact Or.inr rfl
      | cons u rest => cases ht
  | some t =>
    rw [resolve_eq_settle ht] at h
    have hblameless := hpl.blameless t c m p
    generalize pl.resolve t (c.onModel m p) = x at h hblameless
    unfold settle at h
    split at h
    · cases h
      exact Or.inr rfl
    · cases h
      exact Or.inl (hblameless _ rfl)
    · cases h
      exact Or.inr rfl
    · obtain ⟨value, text, rfl⟩ := blamed_of_accept h
      exact Or.inr rfl

theorem blamed_of_resolveAll {ds : List Declaration} {e : Failure}
    (h : resolveAll pl (c.onModel m p) ds = .error e) :
    e.blamed? = none ∨ ∃ d ∈ ds, e.blamed? = some d.name := by
  induction ds with
  | nil => cases h
  | cons d ds ih =>
    rcases resolveAll_cons_eq_error.mp h with hd | ⟨-, hds⟩
    · exact (Declaration.blamed_of_resolve hpl hd).imp_right fun hname => ⟨d, List.mem_cons_self, hname⟩
    · refine (ih hds).imp_right ?_
      rintro ⟨d', hd', hname⟩
      exact ⟨d', List.mem_cons_of_mem d hd', hname⟩

end Blame

section Append

variable {pl : Pipeline} {c : Context} {a b : List Declaration}

theorem resolveAll_append_eq_error {us : Entries Value} (h : resolveAll pl c a = .ok us)
    {e : Failure} : resolveAll pl c (a ++ b) = .error e ↔ resolveAll pl c b = .error e := by
  induction a generalizing us with
  | nil => rfl
  | cons d a ih =>
    obtain ⟨v, ws, hd, ha, -⟩ := resolveAll_cons_eq_ok.mp h
    rw [List.cons_append, resolveAll_cons_eq_error, ih ha, hd]
    simp

theorem get?_resolveAll {vs : Entries Value} (hnodup : (a.map Declaration.name).Nodup)
    (h : resolveAll pl c a = .ok vs) {d : Declaration} (hd : d ∈ a) {v : Value}
    (hv : d.resolve pl c = .ok v) : vs.get? d.name = some v := by
  induction a generalizing vs with
  | nil => cases hd
  | cons e a ih =>
    obtain ⟨w, us, he, ha, rfl⟩ := resolveAll_cons_eq_ok.mp h
    rw [List.map_cons, List.nodup_cons] at hnodup
    rw [Entries.get?_cons]
    rcases List.mem_cons.mp hd with rfl | hd
    · rw [if_pos rfl, Except.ok.inj (he.symm.trans hv)]
    · have hne : d.name ≠ e.name := by
        intro heq
        exact hnodup.1 (heq ▸ List.mem_map_of_mem hd)
      rw [if_neg hne]
      exact ih hnodup.2 ha hd

end Append

theorem nodup_of_parts {template : String} {ds : List Declaration} {statement : String}
    (h : parts template = .ok (ds, statement)) : (ds.map Declaration.name).Nodup := by
  cases hclause : isClause template with
  | false =>
    simp only [parts, hclause] at h
    cases h
  | true =>
    rw [parts_of_isClause hclause] at h
    split at h
    · cases h
    · split at h
      · cases h
      · split at h
        · cases h
        · split at h
          · cases h
          · rename_i hduplicate
            cases h
            exact (duplicate?_eq_none_iff.mp hduplicate).1

theorem nodup_of_read {template : String} {clause : Clause} (h : read template = .ok clause) :
    (clause.declarations.map Declaration.name).Nodup := by
  unfold read at h
  split at h
  · rename_i hparts
    cases h
    exact nodup_of_parts hparts
  · cases h

/-! ### Clauses that disclose nothing -/

/-- Over no model of the class a declaration that tells is reached, or a statement is written that
refers to the whole model. -/
structure Conceals (clause : Clause) (pl : Pipeline) (c : Context) (p : Policy)
    (className : String) : Prop where
  unreached : ∀ before d after, clause.declarations = before ++ d :: after →
    d.Tells p className c.expectedHead → ∀ m : Model, m.className = className →
    ∀ vs, resolveAll pl (c.onModel m p) before ≠ .ok vs
  unwritten : ∀ d ∈ clause.declarations, d.Carries p className c.expectedHead →
    d.name.toList ∈ referenceNames clause.statement → ∀ m : Model, m.className = className →
    ∀ vs, resolveAll pl (c.onModel m p) clause.declarations ≠ .ok vs

section Conceal

variable {pl : Pipeline} (hpl : pl.IsStandard) {p : Policy} {c : Context} {template : String}
  {clause : Clause}
include hpl

theorem resolve_eq_of_conceals (hread : read template = .ok clause) {m n : Model}
    (h : clause.Conceals pl c p m.className)
    (hagree : m.AgreeOff n p) :
    resolve pl template (c.onModel m p) =
      resolve pl template (c.onModel n p) := by
  have halike := resolveAll_alike hpl hagree.answerAlike hagree.twin
    (fun name => ∃ d ∈ clause.declarations, d.Carries p m.className c.expectedHead ∧ d.name = name)
    (fun d hd hcarries => ⟨d, hd, hcarries, rfl⟩)
    (fun before d after heq htells => h.unreached before d after heq htells m rfl)
  rw [resolve_of_read hread, resolve_of_read hread]
  generalize hx : resolveAll pl (c.onModel m p)
    clause.declarations = x at halike ⊢
  generalize resolveAll pl (c.onModel n p)
    clause.declarations = y at halike ⊢
  cases halike with
  | error e => rfl
  | @ok a b hab =>
    refine congrArg Except.ok (substitute_alike hab ?_)
    rintro name hname ⟨d, hd, hcarries, hsame⟩
    have hreferred : d.name.toList ∈ referenceNames clause.statement := by
      rw [hsame, String.toList_ofList]
      exact hname
    exact h.unwritten d hd hcarries hreferred m rfl a hx

/-- A declaration that tells fails over one of two models that agree off the hidden names, and not
in the same way over the other. -/
theorem Declaration.exists_resolve_ne {d : Declaration} {m : Model}
    (h : d.Tells p m.className c.expectedHead) :
    ∃ m₁ m₂ : Model, m.AnswerAlike m₁ p ∧ m.AnswerAlike m₂ p ∧ m₁.AgreeOff m₂ p ∧
      ∃ e, e.blamed? = some d.name ∧
        d.resolve pl (c.onModel m₁ p) = .error e ∧
        d.resolve pl (c.onModel m₂ p) ≠ .error e := by
  obtain ⟨t, ht, hcover, hrefuses⟩ := h
  have hsettle : ∀ n : Model, m.AnswerAlike n p →
      d.resolve pl (c.onModel n p) =
        d.settle (.ok ((Value.host n.toHost).collectionWalk t.fieldPath)) := by
    intro n hn
    rw [resolve_eq_settle ht, hpl.resolve_of_uncovers (hn.className ▸ hcover)]
  have hstart := hcover.start
  cases hpath : t.fieldPath with
  | nil =>
    rw [hpath] at hstart
    obtain ⟨text, hrefused⟩ := d.accept_host.resolve_left (hrefuses hpath)
    obtain ⟨m₁, m₂, hm₁, hm₂, hagree, hlt⟩ := Model.exists_encode_lt hstart m
    have hfails : ∀ n : Model, m.AnswerAlike n p →
        d.resolve pl (c.onModel n p) =
          .error (.resolution
            (.conditionNotMet d.name (Value.host n.toHost).encode text d.expression)) := by
      intro n hn
      rw [hsettle n hn, hpath, Value.collectionWalk_nil]
      exact hrefused n.toHost
    refine ⟨m₁, m₂, hm₁, hm₂, hagree, _, rfl, hfails m₁ hm₁, fun heq => ?_⟩
    rw [hfails m₂ hm₂] at heq
    injection heq with heq
    injection heq with heq
    injection heq with _ hencode _ _
    rw [hencode] at hlt
    exact lt_irrefl _ hlt
  | cons name rest =>
    rw [hpath] at hstart
    obtain ⟨m₁, m₂, hm₁, hm₂, hagree, hnull, hsome⟩ := Model.exists_walk_null hstart m
    refine ⟨m₁, m₂, hm₁, hm₂, hagree, notResolved d .null, rfl, ?_, fun heq => ?_⟩
    · rw [hsettle m₁ hm₁, hpath, hnull]
      rfl
    · rw [hsettle m₂ hm₂, hpath] at heq
      exact hsome (Declaration.eq_null_of_settle heq)

/-- Where a clause has one outcome over models that agree, no declaration that tells is reached: the
first one that is would make the outcomes differ. -/
theorem unreached_of_resolve_eq (hread : read template = .ok clause) {className : String}
    (hequal : ∀ m n : Model, m.className = className → m.AgreeOff n p →
      resolve pl template (c.onModel m p) = resolve pl template (c.onModel n p))
    {before after : List Declaration} {d : Declaration}
    (hsplit : clause.declarations = before ++ d :: after)
    (htells : d.Tells p className c.expectedHead) {m : Model} (hm : m.className = className)
    (vs : Entries Value) : resolveAll pl (c.onModel m p) before ≠ .ok vs := by
  induction hlen : before.length using Nat.strong_induction_on generalizing before d after vs with
  | _ len ih =>
    intro hvs
    subst hm
    have hsilent : ∀ b e a, before = b ++ e :: a → e.Tells p m.className c.expectedHead →
        ∀ us, resolveAll pl (c.onModel m p) b ≠ .ok us := by
      intro b e a hbefore he us
      have hshort : b.length < len := by
        rw [← hlen, hbefore, List.length_append, List.length_cons]
        omega
      have hsplit' : clause.declarations = b ++ e :: (a ++ d :: after) := by
        rw [hsplit, hbefore, List.append_assoc, List.cons_append]
      exact ih b.length hshort hsplit' he us rfl
    obtain ⟨m₁, m₂, hm₁, hm₂, hagree, e, hblamed, hfirst, hsecond⟩ :=
      Declaration.exists_resolve_ne hpl htells
    obtain ⟨us₁, hus₁⟩ := exists_resolveAll hpl hm₁ htells.denied_ne_nil hsilent hvs
    obtain ⟨us₂, hus₂⟩ := exists_resolveAll hpl hm₂ htells.denied_ne_nil hsilent hvs
    have hfails : resolveAll pl (c.onModel m₁ p) clause.declarations = .error e := by
      rw [hsplit, resolveAll_append_eq_error hus₁, resolveAll_cons_eq_error]
      exact Or.inl hfirst
    have hdiffers : resolveAll pl (c.onModel m₂ p) clause.declarations ≠ .error e := by
      rw [hsplit, ne_eq, resolveAll_append_eq_error hus₂, resolveAll_cons_eq_error]
      rintro (hd | ⟨-, hafter⟩)
      · exact hsecond hd
      · rcases blamed_of_resolveAll hpl hafter with hnone | ⟨d', hd', hname⟩
        · rw [hblamed] at hnone
          cases hnone
        · have hnodup := nodup_of_read hread
          rw [hsplit, List.map_append, List.map_cons, List.nodup_append, List.nodup_cons] at hnodup
          rw [hblamed, Option.some.injEq] at hname
          exact hnodup.2.1.1 (hname ▸ List.mem_map_of_mem hd')
    have hsame := hequal m₁ m₂ hm₁.className.symm hagree
    rw [resolve_of_read hread, resolve_of_read hread, hfails] at hsame
    cases hlater : resolveAll pl (c.onModel m₂ p) clause.declarations with
    | error e' =>
      rw [hlater] at hsame hdiffers
      exact hdiffers (congrArg Except.error (Except.error.inj hsame).symm)
    | ok us =>
      rw [hlater] at hsame
      cases hsame

/-- Where a clause has one outcome over models that agree, no statement is written that refers to
the whole model: it would grow with the text of the model. -/
theorem unwritten_of_resolve_eq (hread : read template = .ok clause) {className : String}
    (hequal : ∀ m n : Model, m.className = className → m.AgreeOff n p →
      resolve pl template (c.onModel m p) = resolve pl template (c.onModel n p))
    {d : Declaration} (hd : d ∈ clause.declarations)
    (hcarries : d.Carries p className c.expectedHead)
    (hname : d.name.toList ∈ referenceNames clause.statement) {m : Model}
    (hm : m.className = className) (vs : Entries Value) :
    resolveAll pl (c.onModel m p) clause.declarations ≠ .ok vs := by
  intro hvs
  subst hm
  have hnodup := nodup_of_read hread
  have hsilent : ∀ b e a, clause.declarations = b ++ e :: a →
      e.Tells p m.className c.expectedHead →
      ∀ us, resolveAll pl (c.onModel m p) b ≠ .ok us := fun b e a hsplit htells us =>
    unreached_of_resolve_eq hpl hread hequal hsplit htells rfl us
  obtain ⟨m₁, m₂, hm₁, hm₂, hagree, hlt⟩ := Model.exists_encode_lt hcarries.denied_ne_nil m
  obtain ⟨a, ha⟩ := exists_resolveAll hpl hm₁ hcarries.denied_ne_nil hsilent hvs
  obtain ⟨b, hb⟩ := exists_resolveAll hpl hm₂ hcarries.denied_ne_nil hsilent hvs
  have hclass : m₁.className = m.className := hm₁.className.symm
  have halike : Matches (Alike (fun _ => True) (.host m₁.toHost) (.host m₂.toHost))
      (resolveAll pl (c.onModel m₁ p) clause.declarations)
      (resolveAll pl (c.onModel m₂ p) clause.declarations) := by
    refine resolveAll_alike hpl hagree.answerAlike hagree.twin _ (fun _ _ _ => trivial) ?_
    intro b e a hsplit htells us
    exact unreached_of_resolve_eq hpl hread hequal hsplit (hclass ▸ htells) hclass us
  rw [ha, hb] at halike
  cases halike with
  | ok hab =>
    have hcarries₁ : d.Carries p m₁.className c.expectedHead := hclass ▸ hcarries
    have hcarries₂ : d.Carries p m₂.className c.expectedHead := hm₂.className ▸ hcarries
    have hv := get?_resolveAll hnodup ha hd (Declaration.resolve_of_carries hpl hcarries₁)
    have hw := get?_resolveAll hnodup hb hd (Declaration.resolve_of_carries hpl hcarries₂)
    have hgrows := length_substitute_lt hab hlt hname (by rwa [String.ofList_toList])
      (by rwa [String.ofList_toList])
    have hsame := hequal m₁ m₂ hclass hagree
    rw [resolve_of_read hread, resolve_of_read hread, ha, hb] at hsame
    rw [Except.ok.inj hsame] at hgrows
    exact lt_irrefl _ hgrows

/-- A clause has one outcome over all models of a class that agree off the hidden names exactly when
it conceals what is hidden. -/
theorem resolve_eq_iff (className : String) :
    (∀ m n : Model, m.className = className → m.AgreeOff n p →
        resolve pl template (c.onModel m p) = resolve pl template (c.onModel n p)) ↔
      ∀ clause, read template = .ok clause → clause.Conceals pl c p className := by
  constructor
  · intro hequal clause hread
    exact
      { unreached := fun before d after hsplit htells m hm vs =>
          unreached_of_resolve_eq hpl hread hequal hsplit htells hm vs
        unwritten := fun d hd hcarries hname m hm vs =>
          unwritten_of_resolve_eq hpl hread hequal hd hcarries hname hm vs }
  · intro hconceals m n hm hagree
    subst hm
    cases hread : read template with
    | error e => rw [resolve_of_malformed hread, resolve_of_malformed hread]
    | ok clause => exact resolve_eq_of_conceals hpl hread (hconceals clause hread) hagree

end Conceal

end Clause

end Placeholder
