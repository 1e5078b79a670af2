import Mathlib
import Placeholder.Proofs.ClauseDisclosure
import Placeholder.Proofs.FilledStatement

/-!
# What a clause comes to

A declaration has a value when its expression yields a token for which the pipeline has a value that
is not `null` and meets the condition; in every other case it fails, in one of six ways. A clause
succeeds when all of its declarations have values, and these fill the references of the statement.
Otherwise it fails as its first failing declaration does.
-/

namespace Placeholder

/-- No resolver fails because a condition is not met. -/
def Pipeline.NeverUnmet (p : Pipeline) : Prop :=
  ∀ r ∈ p.resolvers, ∀ t c name value text expression,
    r.resolve t c ≠ .error (.resolution (.conditionNotMet name value text expression))

theorem Pipeline.NeverUnmet.resolve {p : Pipeline} (h : p.NeverUnmet) (t : Token) (c : Context)
    (name value text expression : String) :
    p.resolve t c ≠ .error (.resolution (.conditionNotMet name value text expression)) := by
  unfold Pipeline.resolve
  cases hfind : p.resolverFor? t c with
  | none => exact fun heq => nomatch heq
  | some r => exact h r (List.mem_of_find?_eq_some hfind) t c name value text expression

namespace Clause

/-! ### Conditions -/

theorem meets_of_read?_eq_some {condition : String} {r : Requirement}
    (h : Requirement.read? (Text.trim condition.toList) = some r) (v : Value) :
    meets v condition = r.holds v := by
  unfold meets require
  rw [h]
  cases hholds : r.holds v <;> simp only [hholds] <;> rfl

theorem meets_of_read?_eq_none {condition : String}
    (h : Requirement.read? (Text.trim condition.toList) = none) (v : Value) :
    meets v condition = true := by
  unfold meets require
  rw [h]

/-! ### The outcome of a declaration -/

namespace Declaration

variable {p : Pipeline} {c : Context} {d : Declaration}

/-- What the pipeline gives for the token that the expression of a declaration yields. -/
def Yields (d : Declaration) (p : Pipeline) (c : Context) (outcome : Except Failure Value) : Prop :=
  ∃ t others, Template.parse d.expression = .ok (t :: others) ∧ p.resolve t c = outcome

def MeetsCondition (d : Declaration) (v : Value) : Prop :=
  ∀ condition ∈ d.condition, meets v condition = true

/-- The value of a declaration: that of its token, which is not `null` and meets the condition. -/
structure HasValue (d : Declaration) (p : Pipeline) (c : Context) (v : Value) : Prop where
  yields : d.Yields p c (.ok v)
  present : v ≠ .null
  met : d.MeetsCondition v

/-- The condition of a declaration refuses the value of its token. -/
structure Refuses (d : Declaration) (p : Pipeline) (c : Context) (v : Value) (condition : String)
    (r : Requirement) : Prop where
  yields : d.Yields p c (.ok v)
  present : v ≠ .null
  conditioned : d.condition = some condition
  requirement : Requirement.read? (Text.trim condition.toList) = some r
  unmet : meets v condition = false

/-- The ways in which a declaration fails, each with its error. -/
inductive Fails (d : Declaration) (p : Pipeline) (c : Context) : Failure → Prop where
  | malformed {e : GrammarError} : Template.parse d.expression = .error e → Fails d p c (.grammar e)
  | noToken : Template.parse d.expression = .ok [] → Fails d p c (notResolved d .noPlaceholder)
  | unresolvable {raw kind : String} :
      d.Yields p c (.error (.resolution (.unresolvable raw kind))) →
      Fails d p c (notResolved d (.unresolvable raw kind))
  | unresolved {e : Failure} : d.Yields p c (.error e) →
      (∀ raw kind, e ≠ .resolution (.unresolvable raw kind)) → Fails d p c e
  | null : d.Yields p c (.ok .null) → Fails d p c (notResolved d .null)
  | unmet {v : Value} {condition : String} {r : Requirement} : d.Refuses p c v condition r →
      Fails d p c (.resolution (.conditionNotMet d.name v.encode r.text d.expression))

theorem Yields.token? {outcome : Except Failure Value} (h : d.Yields p c outcome) :
    ∃ t, d.token? = some t ∧ p.resolve t c = outcome := by
  obtain ⟨t, others, hparse, hresolve⟩ := h
  refine ⟨t, ?_, hresolve⟩
  rw [Declaration.token?, hparse]
  rfl

theorem Yields.resolve_eq {outcome : Except Failure Value} (h : d.Yields p c outcome) :
    d.resolve p c = d.settle outcome := by
  obtain ⟨t, ht, hresolve⟩ := h.token?
  rw [resolve_eq_settle ht, hresolve]

theorem settle_of_ne_null {v : Value} (hv : v ≠ .null) : d.settle (.ok v) = d.accept v := by
  cases v <;> first | exact absurd rfl hv | rfl

theorem settle_of_ne_unresolvable {e : Failure}
    (he : ∀ raw kind, e ≠ .resolution (.unresolvable raw kind)) :
    d.settle (.error e) = .error e := by
  unfold settle
  split
  · rename_i heq
    cases heq
    exact absurd rfl (he _ _)
  · rename_i heq
    cases heq
    rfl
  · rename_i heq
    cases heq
  · rename_i heq
    cases heq

theorem accept_of_met {v : Value} (h : d.MeetsCondition v) : d.accept v = .ok v := by
  unfold accept
  cases hcondition : d.condition with
  | none => rfl
  | some condition =>
    have hmet := h condition hcondition
    have hrequire : require d.name v condition d.expression = .ok () := by
      unfold require
      cases hread : Requirement.read? (Text.trim condition.toList) with
      | none => rfl
      | some r => simp only [(meets_of_read?_eq_some hread v).symm.trans hmet, if_true]
    simp only [hrequire]
    rfl

theorem accept_of_unmet {v : Value} {condition : String} {r : Requirement}
    (hcondition : d.condition = some condition)
    (hread : Requirement.read? (Text.trim condition.toList) = some r)
    (hunmet : meets v condition = false) :
    d.accept v = .error (.resolution (.conditionNotMet d.name v.encode r.text d.expression)) := by
  unfold accept
  have hholds : r.holds v = false := (meets_of_read?_eq_some hread v).symm.trans hunmet
  rw [hcondition]
  simp only [require, hread, hholds, Bool.false_eq_true, if_false]
  rfl

theorem HasValue.resolve_eq {v : Value} (h : d.HasValue p c v) : d.resolve p c = .ok v := by
  rw [h.yields.resolve_eq, settle_of_ne_null h.present, accept_of_met h.met]

theorem Fails.resolve_eq {e : Failure} (h : d.Fails p c e) : d.resolve p c = .error e := by
  cases h with
  | malformed hparse =>
    unfold Declaration.resolve
    rw [hparse]
    rfl
  | noToken hparse =>
    unfold Declaration.resolve
    rw [hparse]
    rfl
  | unresolvable hyields => rw [hyields.resolve_eq, settle]
  | unresolved hyields hne => rw [hyields.resolve_eq, settle_of_ne_unresolvable hne]
  | null hyields => rw [hyields.resolve_eq, settle]
  | unmet hrefuses =>
    rw [hrefuses.yields.resolve_eq, settle_of_ne_null hrefuses.present,
      accept_of_unmet hrefuses.conditioned hrefuses.requirement hrefuses.unmet]

theorem refuses_of_not_met {v : Value} (hyields : d.Yields p c (.ok v)) (hv : v ≠ .null)
    (h : ¬ d.MeetsCondition v) : ∃ condition r, d.Refuses p c v condition r := by
  unfold MeetsCondition at h
  push Not at h
  obtain ⟨condition, hcondition, hmeets⟩ := h
  cases hread : Requirement.read? (Text.trim condition.toList) with
  | none => exact absurd (meets_of_read?_eq_none hread v) hmeets
  | some r => exact ⟨condition, r, hyields, hv, hcondition, hread, eq_false_of_ne_true hmeets⟩

/-- A declaration that has no value fails. -/
theorem hasValue_or_fails (d : Declaration) (p : Pipeline) (c : Context) :
    (∃ v, d.HasValue p c v) ∨ ∃ e, d.Fails p c e := by
  cases hparse : Template.parse d.expression with
  | error e => exact Or.inr ⟨_, .malformed hparse⟩
  | ok tokens =>
    cases tokens with
    | nil => exact Or.inr ⟨_, .noToken hparse⟩
    | cons t others =>
      have hyields : d.Yields p c (p.resolve t c) := ⟨t, others, hparse, rfl⟩
      cases hresolve : p.resolve t c with
      | error e =>
        rw [hresolve] at hyields
        by_cases hne : ∀ raw kind, e ≠ .resolution (.unresolvable raw kind)
        · exact Or.inr ⟨e, .unresolved hyields hne⟩
        · push Not at hne
          obtain ⟨raw, kind, rfl⟩ := hne
          exact Or.inr ⟨_, .unresolvable hyields⟩
      | ok v =>
        rw [hresolve] at hyields
        by_cases hnull : v = .null
        · subst hnull
          exact Or.inr ⟨_, .null hyields⟩
        · by_cases hmet : d.MeetsCondition v
          · exact Or.inl ⟨v, hyields, hnull, hmet⟩
          · obtain ⟨condition, r, hrefuses⟩ := refuses_of_not_met hyields hnull hmet
            exact Or.inr ⟨_, .unmet hrefuses⟩

theorem resolve_eq_ok_iff {v : Value} : d.resolve p c = .ok v ↔ d.HasValue p c v := by
  refine ⟨fun h => ?_, HasValue.resolve_eq⟩
  rcases d.hasValue_or_fails p c with ⟨w, hw⟩ | ⟨e, he⟩
  · rw [hw.resolve_eq] at h
    exact Except.ok.inj h ▸ hw
  · rw [he.resolve_eq] at h
    cases h

theorem resolve_eq_error_iff {e : Failure} : d.resolve p c = .error e ↔ d.Fails p c e := by
  refine ⟨fun h => ?_, Fails.resolve_eq⟩
  rcases d.hasValue_or_fails p c with ⟨w, hw⟩ | ⟨e', he⟩
  · rw [hw.resolve_eq] at h
    cases h
  · rw [he.resolve_eq] at h
    exact Except.error.inj h ▸ he

/-- Where resolvers do not fail so themselves, the error of an unmet condition is a refusal. -/
theorem Fails.refuses (hp : p.NeverUnmet) {name value text expression : String}
    (h : d.Fails p c (.resolution (.conditionNotMet name value text expression))) :
    ∃ v condition r, d.Refuses p c v condition r := by
  cases h with
  | unresolved hyields =>
    obtain ⟨t, -, -, hresolve⟩ := hyields
    exact absurd hresolve (hp.resolve t c name value text expression)
  | unmet hrefuses => exact ⟨_, _, _, hrefuses⟩

end Declaration

/-! ### The outcome of the declarations together -/

section Declarations

variable {p : Pipeline} {c : Context}

/-- `d` is the first of the declarations without a value, if it has none. -/
def Precedes (p : Pipeline) (c : Context) (ds : List Declaration) (d : Declaration) : Prop :=
  ∃ before after, ds = before ++ d :: after ∧ ∀ b ∈ before, ∃ v, b.HasValue p c v

/-- The entries are the names of the declarations with their values, in their order. -/
def Binds (p : Pipeline) (c : Context) (ds : List Declaration) (values : Entries Value) : Prop :=
  List.Forall₂ (fun d entry => entry.1 = d.name ∧ d.HasValue p c entry.2) ds values

theorem Binds.keys_eq {ds : List Declaration} {values : Entries Value} (h : Binds p c ds values) :
    Entries.keys values = ds.map Declaration.name := by
  induction h with
  | nil => rfl
  | cons hentry _ ih => simp only [Entries.keys, List.map_cons, hentry.1] at ih ⊢; rw [ih]

theorem resolveAll_eq_ok_iff {ds : List Declaration} {values : Entries Value} :
    resolveAll p c ds = .ok values ↔ Binds p c ds values := by
  induction ds generalizing values with
  | nil =>
    rw [resolveAll, Binds, List.forall₂_nil_left_iff]
    exact ⟨fun h => (Except.ok.inj h).symm, fun h => h ▸ rfl⟩
  | cons d ds ih =>
    rw [resolveAll_cons_eq_ok, Binds, List.forall₂_cons_left_iff]
    constructor
    · rintro ⟨v, us, hd, hds, rfl⟩
      exact ⟨(d.name, v), us, ⟨rfl, Declaration.resolve_eq_ok_iff.mp hd⟩, ih.mp hds, rfl⟩
    · rintro ⟨⟨name, v⟩, us, ⟨rfl, hv⟩, hds, rfl⟩
      exact ⟨v, us, hv.resolve_eq, ih.mpr hds, rfl⟩

theorem exists_binds_iff {ds : List Declaration} :
    (∃ values, Binds p c ds values) ↔ ∀ d ∈ ds, ∃ v, d.HasValue p c v := by
  induction ds with
  | nil => exact ⟨fun _ d hd => (nomatch hd), fun _ => ⟨[], .nil⟩⟩
  | cons d ds ih =>
    rw [List.forall_mem_cons, ← ih]
    constructor
    · rintro ⟨values, hvalues⟩
      cases hvalues with
      | cons hentry hrest => exact ⟨⟨_, hentry.2⟩, _, hrest⟩
    · rintro ⟨⟨v, hv⟩, values, hvalues⟩
      exact ⟨(d.name, v) :: values, .cons ⟨rfl, hv⟩ hvalues⟩

/-- The declarations fail together as the first of them without a value does. -/
theorem resolveAll_eq_error_iff {ds : List Declaration} {e : Failure} :
    resolveAll p c ds = .error e ↔ ∃ d, Precedes p c ds d ∧ d.Fails p c e := by
  induction ds with
  | nil =>
    constructor
    · intro h
      cases h
    · rintro ⟨d, ⟨before, after, hds, -⟩, -⟩
      simp at hds
  | cons d ds ih =>
    rw [resolveAll_cons_eq_error, Declaration.resolve_eq_error_iff, ih]
    constructor
    · rintro (hfails | ⟨⟨v, hv⟩, b, ⟨before, after, rfl, hbefore⟩, hb⟩)
      · exact ⟨d, ⟨[], ds, rfl, fun _ h => (nomatch h)⟩, hfails⟩
      · have hd : ∃ v, d.HasValue p c v := ⟨v, Declaration.resolve_eq_ok_iff.mp hv⟩
        exact ⟨b, ⟨d :: before, after, rfl, List.forall_mem_cons.mpr ⟨hd, hbefore⟩⟩, hb⟩
    · rintro ⟨b, ⟨before, after, hds, hbefore⟩, hb⟩
      cases before with
      | nil =>
        obtain ⟨rfl, -⟩ := List.cons.inj hds
        exact Or.inl hb
      | cons a before =>
        obtain ⟨rfl, rfl⟩ := List.cons.inj hds
        obtain ⟨⟨v, hv⟩, hbefore⟩ := List.forall_mem_cons.mp hbefore
        exact Or.inr ⟨⟨v, hv.resolve_eq⟩, b, ⟨before, after, rfl, hbefore⟩, hb⟩

end Declarations

/-! ### The outcome of a clause -/

theorem exists_readDeclarations {template : String} {clause : Clause}
    (h : read template = .ok clause) :
    clause.template = template ∧ ∃ block, clause.declarations = readDeclarations block := by
  unfold read at h
  split at h
  · rename_i declarations statement hparts
    cases h
    refine ⟨rfl, ?_⟩
    cases hclause : isClause template with
    | false =>
      simp only [parts, hclause] at hparts
      cases hparts
    | true =>
      rw [parts_of_isClause hclause] at hparts
      split at hparts
      · cases hparts
      · rename_i block tail _
        repeat' split at hparts
        all_goals cases hparts
        exact ⟨block, rfl⟩
  · cases h

theorem isName_of_read {template : String} {clause : Clause} (h : read template = .ok clause)
    {d : Declaration} (hd : d ∈ clause.declarations) : IsName d.name := by
  obtain ⟨-, block, hblock⟩ := exists_readDeclarations h
  rw [hblock] at hd
  exact isName_of_mem_readDeclarationsFrom hd

section Outcome

variable {p : Pipeline} {c : Context} {template : String} {clause : Clause}

theorem tryResolve_eq_none_iff :
    tryResolve p template c = .ok none ↔ ∃ name value text expression,
      resolveDetailed p template c =
        .error (.resolution (.conditionNotMet name value text expression)) := by
  unfold tryResolve resolve
  cases resolveDetailed p template c with
  | ok r => simp [Except.map]
  | error e =>
    simp only [Except.map]
    split <;> simp_all

theorem resolveDetailed_of_read (h : read template = .ok clause) :
    resolveDetailed p template c =
      (resolveAll p c clause.declarations).map fun values =>
        ⟨substitute clause.statement values, values, clause.template⟩ := by
  unfold resolveDetailed
  rw [h]
  cases hvalues : resolveAll p c clause.declarations <;>
    simp only [Except.mapError, bind, Except.bind, hvalues, Except.map]

theorem resolveDetailed_eq_error_iff (h : read template = .ok clause) {e : Failure} :
    resolveDetailed p template c = .error e ↔
      ∃ d, Precedes p c clause.declarations d ∧ d.Fails p c e := by
  rw [resolveDetailed_of_read h, ← resolveAll_eq_error_iff]
  cases resolveAll p c clause.declarations <;> simp [Except.map]

/-- The values of a clause are those of its declarations, and the statement is filled with them. -/
theorem resolveDetailed_eq_ok_iff (h : read template = .ok clause) {r : Resolution} :
    resolveDetailed p template c = .ok r ↔
      Binds p c clause.declarations r.values ∧
        Filled r.values clause.statement.toList r.statement.toList ∧ r.template = template := by
  have htemplate := (exists_readDeclarations h).1
  have hfilled {values : Entries Value} (hbinds : Binds p c clause.declarations values)
      (text : List Char) :
      Filled values clause.statement.toList text ↔ text = fill values clause.statement.toList := by
    have hkeys := hbinds.keys_eq
    refine filled_iff (fun entry hentry => ?_) (hkeys ▸ nodup_of_read h)
    have hname : entry.1 ∈ Entries.keys values := List.mem_map_of_mem hentry
    rw [hkeys] at hname
    obtain ⟨d, hd, hd'⟩ := List.mem_map.mp hname
    exact hd' ▸ isName_of_read h hd
  rw [resolveDetailed_of_read h]
  constructor
  · intro hr
    cases hvalues : resolveAll p c clause.declarations with
    | error e =>
      rw [hvalues] at hr
      cases hr
    | ok values =>
      rw [hvalues] at hr
      cases hr
      have hbinds := resolveAll_eq_ok_iff.mp hvalues
      refine ⟨hbinds, (hfilled hbinds _).mpr ?_, htemplate⟩
      exact String.toList_ofList
  · obtain ⟨statement, values, template'⟩ := r
    rintro ⟨hbinds, hstatement, rfl⟩
    rw [resolveAll_eq_ok_iff.mpr hbinds, Except.map, substitute_eq_fill,
      ← (hfilled hbinds _).mp hstatement, String.ofList_toList, htemplate]

end Outcome

/-- A clause that can be read succeeds exactly if every declaration has a value, which is the value
of its token, not `null`, and meets the condition. The result then has these values under the
declared names, in the order of the declarations, and the statement with every reference to a
declared name replaced by the text of its value; everything else stays, and what takes the place of
a reference is not read again. Otherwise the error is that of the first declaration without a value,
and `tryResolve` passes over it exactly if the condition of that declaration refuses its value. -/
theorem resolveDetailed_outcome {p : Pipeline} (hp : p.NeverUnmet) {template : String}
    {clause : Clause} (hread : read template = .ok clause) (c : Context) :
    (∀ r, resolveDetailed p template c = .ok r ↔
      Binds p c clause.declarations r.values ∧
        Filled r.values clause.statement.toList r.statement.toList ∧ r.template = template) ∧
    ((∃ r, resolveDetailed p template c = .ok r) ↔
      ∀ d ∈ clause.declarations, ∃ v, d.HasValue p c v) ∧
    (∀ e, resolveDetailed p template c = .error e ↔
      ∃ d, Precedes p c clause.declarations d ∧ d.Fails p c e) ∧
    (tryResolve p template c = .ok none ↔
      ∃ d, Precedes p c clause.declarations d ∧ ∃ v condition r, d.Refuses p c v condition r) := by
  refine ⟨fun r => resolveDetailed_eq_ok_iff hread, ?_, fun e => resolveDetailed_eq_error_iff hread,
    ?_⟩
  · rw [← exists_binds_iff, resolveDetailed_of_read hread]
    simp only [← resolveAll_eq_ok_iff]
    cases resolveAll p c clause.declarations <;> simp [Except.map]
  · rw [tryResolve_eq_none_iff]
    simp only [resolveDetailed_eq_error_iff hread]
    constructor
    · rintro ⟨name, value, text, expression, d, hd, hfails⟩
      exact ⟨d, hd, hfails.refuses hp⟩
    · rintro ⟨d, hd, v, condition, r, hrefuses⟩
      exact ⟨_, _, _, _, d, hd, .unmet hrefuses⟩

def who : Declaration :=
  ⟨"who", "\x7b\x7b$who\x7d\x7d", none⟩

def adult : Declaration :=
  ⟨"age", "\x7b\x7b$age\x7d\x7d", some ">= 18"⟩

/-- A clause whose statement refers to a name that is not declared. -/
def notice : String :=
  "USE \x7bwho\x7d => \x7b\x7b$who\x7d\x7d, \x7bage\x7d => \x7b\x7b$age\x7d\x7d >= 18 " ++
    "&& \x7bwho\x7d, \x7bcity\x7d, \x7bage\x7d"

def noticeOf (name : String) (age : Int64) : Context :=
  ((Context.empty).withVariable "who" (.string name)).withVariable "age" (.int age)

def clerk : Pipeline :=
  ⟨[Resolver.contextVariable]⟩

theorem clerk_neverUnmet : clerk.NeverUnmet := by
  intro r hr t c name value text expression h
  rw [clerk, List.mem_singleton] at hr
  subst hr
  cases h

theorem read_notice :
    read notice = .ok ⟨[who, adult], "\x7bwho\x7d, \x7bcity\x7d, \x7bage\x7d", notice⟩ := by
  decide

theorem hasValue_who (name : String) (age : Int64) :
    who.HasValue clerk (noticeOf name age) (.string name) where
  yields := ⟨_, _, rfl, rfl⟩
  present := Value.noConfusion
  met := by rintro condition ⟨⟩

theorem yields_adult (name : String) (age : Int64) :
    adult.Yields clerk (noticeOf name age) (.ok (.int age)) :=
  ⟨_, _, rfl, rfl⟩

/-- The name in the notice looks like a reference, and of the two ages one is refused. -/
theorem resolveDetailed_notice :
    clerk.NeverUnmet ∧
      read notice = .ok ⟨[who, adult], "\x7bwho\x7d, \x7bcity\x7d, \x7bage\x7d", notice⟩ ∧
      resolveDetailed clerk notice (noticeOf "\x7bage\x7d" 18) =
        .ok ⟨"\x7bage\x7d, \x7bcity\x7d, 18", [("who", .string "\x7bage\x7d"), ("age", .int 18)],
          notice⟩ ∧
      resolveDetailed clerk notice (noticeOf "Ann" 17) =
        .error (.resolution (.conditionNotMet "age" "17" ">= 18" adult.expression)) ∧
      tryResolve clerk notice (noticeOf "Ann" 17) = .ok none := by
  have houtcome := fun c => resolveDetailed_outcome clerk_neverUnmet read_notice c
  have hwho : ∀ name age, who.HasValue clerk (noticeOf name age) (.string name) := hasValue_who
  have hadult : adult.HasValue clerk (noticeOf "\x7bage\x7d" 18) (.int 18) :=
    ⟨yields_adult _ _, Value.noConfusion, by rintro condition ⟨⟩; rfl⟩
  have hrefuses : adult.Refuses clerk (noticeOf "Ann" 17) (.int 17) ">= 18"
      (.comparison ">=".toList "18".toList) :=
    ⟨yields_adult _ _, Value.noConfusion, rfl, by decide, rfl⟩
  have hprecedes : Precedes clerk (noticeOf "Ann" 17) [who, adult] adult := by
    refine ⟨[who], [], rfl, fun b hb => ?_⟩
    rw [List.mem_singleton.mp hb]
    exact ⟨_, hwho "Ann" 17⟩
  refine ⟨clerk_neverUnmet, read_notice, ?_, ?_, ?_⟩
  · refine ((houtcome _).1 _).mpr ⟨.cons ⟨rfl, hwho _ _⟩ (.cons ⟨rfl, hadult⟩ .nil), ?_, rfl⟩
    refine (filled_iff (fun entry hentry => ?_) (by decide)).mpr rfl
    rcases List.mem_cons.mp hentry with rfl | hentry
    · exact isName_of_read read_notice List.mem_cons_self
    · rw [List.mem_singleton.mp hentry]
      exact isName_of_read read_notice (List.mem_cons_of_mem who List.mem_cons_self)
  · exact ((houtcome _).2.2.1 _).mpr ⟨adult, hprecedes, .unmet hrefuses⟩
  · exact (houtcome _).2.2.2.mpr ⟨adult, hprecedes, _, _, _, hrefuses⟩
end Clause

end Placeholder
