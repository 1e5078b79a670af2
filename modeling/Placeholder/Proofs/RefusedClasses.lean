import Mathlib
import Placeholder.Clause.Resolution
import Placeholder.Proofs.HiddenAttributes
import Placeholder.Proofs.TokenCache

/-!
# Classes that are not allowed

A policy that allows some classes refuses a model of any other class before it looks at a path. So
every look-up and every walk over such a model fails in the same way, whatever the model holds, and
no translation and no clause can tell two models of the class apart.
-/

namespace Placeholder

namespace Policy

/-- The policy allows certain classes only, and this one is not among them, neither by its name nor
by its short name. -/
structure Refuses (p : Policy) (className : String) : Prop where
  selective : p.allowed ≠ []
  name : className ∉ p.allowed
  shortName : shortName className ∉ p.allowed

def refusal (p : Policy) (className : String) : Failure :=
  .security (.modelNotAllowed className p.allowed)

theorem Refuses.admits {p : Policy} {className : String} (h : p.Refuses className) :
    p.admits className = false := by
  simp only [Policy.admits, Bool.or_eq_false_iff, List.isEmpty_eq_false_iff,
    List.contains_eq_mem, decide_eq_false_iff_not]
  exact ⟨⟨h.selective, h.name⟩, h.shortName⟩

end Policy

namespace Model

variable {m : Model} {p : Policy}

theorem check_of_refuses (h : p.Refuses m.className) (path : String) :
    m.check p path = .error (p.refusal m.className) := by
  simp only [check, Policy.checkSource, h.admits, Bool.false_eq_true, if_false]
  rfl

theorem get_of_refuses (h : p.Refuses m.className) (path : String) :
    (m.source p).get path = .error (p.refusal m.className) := by
  simp only [source, check_of_refuses h]
  rfl

end Model

/-- The contexts over two models of a refused class answer alike: they answer nothing. -/
theorem Context.answerAlike_of_refuses {m n : Model} {p : Policy}
    (hclass : m.className = n.className) (h : p.Refuses m.className) (c : Context) :
    (c.onModel m p).AnswerAlike (c.onModel n p) where
  get := funext fun path => by
    change (m.source p).get path = (n.source p).get path
    rw [Model.get_of_refuses h, Model.get_of_refuses (hclass ▸ h), hclass]
  check := funext fun path => by
    change m.check p path = n.check p path
    rw [Model.check_of_refuses h, Model.check_of_refuses (hclass ▸ h), hclass]
  bindings := rfl
  strict := rfl
  expectedHead := rfl

/-- Where every check fails, the resolver of collections walks over nothing. -/
theorem Resolver.collection_of_refused {c d : Context} (h : c.AnswerAlike d) {e : Failure}
    (hrefused : ∀ path, c.source.check path = .error e) (t : Token) :
    collection.resolve t c = collection.resolve t d := by
  have hrefused' : ∀ path, d.source.check path = .error e := h.check ▸ hrefused
  simp only [collection, ofKinds, expects_eq h, hrefused, hrefused']
  rfl

namespace Pipeline

variable {k : Clock} {functions : HostFunctions} {formatters : Formatters}

theorem resolve_standard_of_refuses {m n : Model} {p : Policy} (hclass : m.className = n.className)
    (h : p.Refuses m.className) (c : Context) (t : Token) :
    (standard k functions formatters).resolve t (c.onModel m p) =
      (standard k functions formatters).resolve t (c.onModel n p) := by
  have halike := Context.answerAlike_of_refuses hclass h c
  by_cases ht : t.kind = .collection
  · rw [resolve_standard_collection ht, resolve_standard_collection ht]
    exact Resolver.collection_of_refused halike (Model.check_of_refuses h) t
  · exact resolve_standard_of_ne ht halike

/-! ### Equal outcomes of all tokens -/

variable {p : Pipeline} {c d : Context}

theorem translateTokens_congr (hstrict : c.strict = d.strict)
    (h : ∀ t, p.resolve t c = p.resolve t d) (keep : Bool) (template : String)
    (tokens : List Token) :
    p.translateTokens keep template tokens c = p.translateTokens keep template tokens d := by
  have hfind : p.find keep c = p.find keep d := by
    funext f t
    rw [find, find, h, hstrict]
  rw [translateTokens, translateTokens, hfind]

end Pipeline

namespace Clause

variable {p : Pipeline} {c d : Context}

theorem resolveAll_congr (h : ∀ t, p.resolve t c = p.resolve t d) (ds : List Declaration) :
    resolveAll p c ds = resolveAll p d ds := by
  induction ds with
  | nil => rfl
  | cons declaration ds ih =>
    have hfirst : declaration.resolve p c = declaration.resolve p d := by
      simp only [Declaration.resolve, h]
    rw [resolveAll, resolveAll, hfirst, ih]

theorem resolve_congr (h : ∀ t, p.resolve t c = p.resolve t d) (template : String) :
    resolve p template c = resolve p template d := by
  simp only [resolve, resolveDetailed, resolveAll_congr h]

end Clause

section Reveal

variable {k : Clock} {functions : HostFunctions} {formatters : Formatters}

/-- A translation over a model of a refused class, and a clause over it, come to the same whatever
the attributes and the relations of the model are. -/
theorem Translator.translate_of_refuses {tr : Translator}
    (hp : tr.pipeline = .standard k functions formatters) {p : Policy} {className : String}
    (h : p.Refuses className) {m n : Model} (hm : m.className = className)
    (hn : n.className = className) (now : Nat) (template : String) (c : Context) :
    (tr.translate now template (c.onModel m p)).1 = (tr.translate now template (c.onModel n p)).1 ∧
      Clause.resolve tr.pipeline template (c.onModel m p) =
        Clause.resolve tr.pipeline template (c.onModel n p) := by
  subst hm
  have htokens : ∀ t, tr.pipeline.resolve t (c.onModel m p) =
      tr.pipeline.resolve t (c.onModel n p) := by
    rw [hp]
    exact Pipeline.resolve_standard_of_refuses hn.symm h c
  refine ⟨?_, Clause.resolve_congr htokens template⟩
  have htranslate := Pipeline.translateTokens_congr (c := c.onModel m p) (d := c.onModel n p) rfl
    htokens tr.keepUnresolved template
  simp only [translate_fst, htranslate]

end Reveal

def ordersOnly : Policy :=
  { allowed := ["Order", "app::Invoice"] }

def member (name : String) (orders : List Value) : Model where
  identity := 0
  className := "app::User"
  attributes := [("name", .string name)]
  relations := [("orders", .array orders)]

theorem ordersOnly_refuses : ordersOnly.Refuses "app::User" :=
  ⟨by decide, by decide, by decide⟩

/-- A translator with the ordinary pipeline and formatters that keeps what it cannot resolve. -/
def lenientDesk : Translator where
  pipeline := .standard { now := ⟨⟨2026, 3, 1, by decide⟩, Calendar.Time.midnight⟩ } []
    Formatters.builtIn
  strict := false
  keepUnresolved := true

/-- Neither the name of a user nor whether there are orders can be told from a text or a clause. -/
theorem translate_of_refuses_member :
    ordersOnly.Refuses "app::User" ∧
      ∀ template,
        (lenientDesk.translate 0 template
            (Context.empty.onModel (member "Ann" []) ordersOnly)).1 =
          (lenientDesk.translate 0 template
            (Context.empty.onModel (member "Bob" [.int 7]) ordersOnly)).1 ∧
        Clause.resolve lenientDesk.pipeline template
            (Context.empty.onModel (member "Ann" []) ordersOnly) =
          Clause.resolve lenientDesk.pipeline template
            (Context.empty.onModel (member "Bob" [.int 7]) ordersOnly) :=
  ⟨ordersOnly_refuses, fun template =>
    Translator.translate_of_refuses rfl ordersOnly_refuses rfl rfl 0 template Context.empty⟩

end Placeholder
