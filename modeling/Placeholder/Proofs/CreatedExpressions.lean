import Mathlib
import Placeholder.Proofs.KeptTree
import Placeholder.Proofs.RegistryHistory
import Placeholder.Proofs.WrittenTree

/-!
# Expressions that a registry creates

A created expression takes the predicates of the registry with it. So the expression that consists of
a custom keyword answers like the registry itself, whatever calls came before, and what is registered
or dropped later does not reach it. Calls of the registry, creations and evaluations of the created
expressions may come in any order.
-/

namespace Placeholder.Temporal

open Calendar

/-! ### Identifiers -/

/-- A letter or `_`, followed by letters, digits and `_`. -/
def IsIdentifier (name : String) : Prop :=
  ∃ c cs, name.toList = c :: cs ∧ Text.isNameStart c = true ∧ ∀ d ∈ cs, Text.isNamePart d = true

theorem IsIdentifier.isNamePart {name : String} (h : IsIdentifier name) :
    ∀ c ∈ name.toList, Text.isNamePart c = true := by
  obtain ⟨c, cs, hlist, hc, hcs⟩ := h
  rw [hlist]
  exact List.forall_mem_cons.mpr ⟨Lexeme.isNamePart_of_isNameStart hc, hcs⟩

theorem IsIdentifier.not_mem {name : String} (h : IsIdentifier name) {c : Char}
    (hc : Text.isNamePart c = false) : c ∉ name.toList := by
  intro hmem
  rw [h.isNamePart c hmem] at hc
  cases hc

/-- An identifier is read as the condition with this name. -/
theorem IsIdentifier.read {name : String} (h : IsIdentifier name) (hname : name ∉ builtInKeywords) :
    Tree.read name = .ok (.custom name) := by
  have hparts := h.isNamePart
  obtain ⟨c, cs, hlist, hc, hcs⟩ := h
  rw [hlist] at hparts
  have hunmarked : ∀ word : List Char, word.all Text.isNamePart = true →
      ¬ word ++ [':'] <+: c :: cs := by
    intro word hword
    have hends : Lexeme.Ends [] := fun _ h => by cases h
    simpa using Lexeme.not_prefix_of_name word hword hparts hends
  have hdenotes : Denotes (c :: cs) (.custom name) := by
    rw [← String.ofList_toList (s := name), hlist]
    refine .custom (hunmarked "cron".toList rfl) (hunmarked "nth".toList rfl)
      (hunmarked "last".toList rfl) ?_ ?_
    · intro start stop hclocks
      rw [takeClockPair?_of_not_digit (Lexeme.not_isDigit_of_isNameStart hc)] at hclocks
      cases hclocks
    · rwa [← hlist, String.ofList_toList]
  have hgrammatical : Tree.Grammatical (fun _ => c :: cs) (.custom name) :=
    .condition (.name hc hcs) hdenotes
  have hread : Tree.read (String.ofList (Lexeme.spread [⟨[], .condition (c :: cs)⟩] ++ [])) =
      .ok (.custom name) :=
    (Tree.read_spread_iff hgrammatical (Nat.zero_le _)
      (List.forall_mem_singleton.mpr Text.padding_nil) rfl Text.padding_nil).mpr
      (List.isChain_singleton _)
  simpa [Lexeme.spread, Lexeme.text, ← hlist] using hread

/-! ### Custom keywords in expressions -/

namespace Registry

theorem evaluators_expression (r : Registry) (text : String) :
    (r.expression text).evaluators = Entries.ofList r.evaluators := by
  rw [expression, Expression.registerAll_eq_after, Expression.after_evaluators,
    Expression.registrations_map_register]
  rfl

theorem faithful_expression (r : Registry) (text : String) : (r.expression text).Faithful := by
  rw [expression, Expression.registerAll_eq_after]
  exact Expression.after_faithful (Expression.faithful_of_unread rfl) _

theorem text_expression (r : Registry) (text : String) : (r.expression text).text = text := by
  rw [expression, Expression.registerAll_eq_after, Expression.after_text]

theorem remaining?_of_custom {keyword : String} (hname : keyword ∉ builtInKeywords)
    (events : List Event) : remaining? keyword events = none := by
  have hkeys : keyword ∉ builtIns.keys := hname
  rw [remaining?, Entries.get?_eq_none_iff.mpr hkeys, ite_self]

/-- The expression that names a custom keyword asks for the predicate of the registry. -/
theorem Tracks.holds_expression {r : Registry} {events : List Event} (h : r.Tracks events)
    {keyword : String} (hkeyword : IsIdentifier keyword) (hname : keyword ∉ builtInKeywords)
    (t : DateTime) :
    (r.expression keyword).holds t =
      Tree.ask (live? keyword events) (.missingEvaluator keyword) t := by
  rw [(faithful_expression r keyword).holds_eq, text_expression, Expression.answer,
    hkeyword.read hname]
  simp only [Tree.holds]
  rw [evaluators_expression, Entries.get?_ofList h.nodup, h.evaluators]

end Registry

/-! ### Expressions among the calls -/

/-- A registry together with the expressions that it has created. -/
structure Session where
  registry : Registry := .fresh
  created : List Expression := []

namespace Session

open Registry (live? birth remaining?_of_custom)

inductive Event where
  | change (event : Registry.Event)
  | create (text : String)
  | evaluate (index : Nat) (t : DateTime)

def step (s : Session) : Event → Session
  | .change event => { s with registry := s.registry.step event }
  | .create text => { s with created := s.created ++ [s.registry.expression text] }
  | .evaluate index t => { s with created := s.created.modify index fun e => (e.evaluate t).2 }

/-- The registry and its expressions after calls in their order. -/
def after (s : Session) (events : List Event) : Session :=
  events.foldl step s

def Event.change? : Event → Option Registry.Event
  | change event => some event
  | create _ => none
  | evaluate _ _ => none

def changes (events : List Event) : List Registry.Event :=
  events.filterMap Event.change?

theorem registry_after (s : Session) (events : List Event) :
    (s.after events).registry = s.registry.after (changes events) := by
  induction events generalizing s with
  | nil => rfl
  | cons event events ih =>
    refine (ih (s.step event)).trans ?_
    cases event <;> rfl

/-- The same text and predicates, and a tree only if it is the tree of the text. -/
def AnswersLike (e f : Expression) : Prop :=
  e.text = f.text ∧ e.evaluators = f.evaluators ∧ e.Faithful

theorem AnswersLike.holds_eq {e f : Expression} (h : AnswersLike e f) (hf : f.Faithful)
    (t : DateTime) : e.holds t = f.holds t := by
  obtain ⟨htext, hevaluators, he⟩ := h
  rw [he.holds_eq, hf.holds_eq, htext, hevaluators]

theorem AnswersLike.evaluate {e f : Expression} (h : AnswersLike e f) (t : DateTime) :
    AnswersLike (e.evaluate t).2 f := by
  obtain ⟨htext, hevaluators, he⟩ := h
  refine ⟨?_, ?_, Expression.step_faithful he (.evaluate t)⟩
  · exact (Expression.step_text e (.evaluate t)).trans htext
  · exact (Expression.step_evaluators e (.evaluate t)).trans hevaluators

/-- No call takes an expression away, and none changes what it answers. -/
theorem exists_created_step {s : Session} {index : Nat} {e f : Expression}
    (hcreated : s.created[index]? = some e) (h : AnswersLike e f) (event : Event) :
    ∃ e', (s.step event).created[index]? = some e' ∧ AnswersLike e' f := by
  cases event with
  | change event => exact ⟨e, hcreated, h⟩
  | create text =>
    have hlt := (List.getElem?_eq_some_iff.mp hcreated).1
    exact ⟨e, by rw [step, List.getElem?_append_left hlt, hcreated], h⟩
  | evaluate place t =>
    by_cases hplace : place = index
    · refine ⟨(e.evaluate t).2, ?_, h.evaluate t⟩
      rw [step, hplace, List.getElem?_modify_eq, hcreated]
      rfl
    · refine ⟨e, ?_, h⟩
      rw [step, List.getElem?_modify_ne _ _ hplace, hcreated]

theorem exists_created_after {s : Session} {index : Nat} {e f : Expression}
    (hcreated : s.created[index]? = some e) (h : AnswersLike e f) (events : List Event) :
    ∃ e', (s.after events).created[index]? = some e' ∧ AnswersLike e' f := by
  induction events generalizing s e with
  | nil => exact ⟨e, hcreated, h⟩
  | cons event events ih =>
    obtain ⟨e', hcreated', h'⟩ := exists_created_step hcreated h event
    exact ih hcreated' h'

/-- An expression answers for good what the registry had it answer when it was created. -/
theorem exists_created (before : List Event) (text : String) (later : List Event) :
    ∃ e, (after {} (before ++ .create text :: later)).created[(after {} before).created.length]? =
        some e ∧
      ∀ t, e.holds t = ((after {} before).registry.expression text).holds t := by
  have hsplit : after {} (before ++ .create text :: later) =
      (after {} before |>.step (.create text)).after later := by
    rw [after, List.foldl_append]
    rfl
  have hfaithful := Registry.faithful_expression (after {} before).registry text
  obtain ⟨e, hcreated, halike⟩ := exists_created_after (s := (after {} before).step (.create text))
    (List.getElem?_concat_length ..) ⟨rfl, rfl, hfaithful⟩ later
  exact ⟨e, by rw [hsplit, hcreated], halike.holds_eq hfaithful⟩

/-- A live keyword means the predicate that was registered last, for the registry and for the
expression that names it; both know that any other keyword is missing. The custom keywords are the
live ones in the order of their births. Expressions that were created before answer as they did. -/
theorem keywords_after (events : List Event) :
    let r := (after {} events).registry
    (∀ keyword, IsIdentifier keyword → keyword ∉ builtInKeywords → ∀ t : DateTime,
      (∀ f, live? keyword (changes events) = some f →
        r.has keyword = true ∧ r.evaluate keyword t = f t ∧
          ((r.expression keyword).evaluate t).1 = .ok (f t)) ∧
      (live? keyword (changes events) = none →
        r.has keyword = false ∧ r.evaluate keyword t = false ∧
          ((r.expression keyword).evaluate t).1 =
            .error (.temporal (.missingEvaluator keyword)))) ∧
    (r.customKeywords.Nodup ∧
      (∀ keyword, keyword ∈ r.customKeywords ↔ (live? keyword (changes events)).isSome = true) ∧
      r.customKeywords.Pairwise fun a b =>
        birth a (changes events) < birth b (changes events)) ∧
    ∀ before text later, events = before ++ .create text :: later →
      ∃ e, (after {} events).created[(after {} before).created.length]? = some e ∧
        ∀ t, (e.evaluate t).1 = (((after {} before).registry.expression text).evaluate t).1 := by
  intro r
  have htracks : r.Tracks (changes events) := by
    have hregistry : r = Registry.fresh.after (changes events) := registry_after {} events
    rw [hregistry]
    exact Registry.tracks_after _
  refine ⟨?_, ⟨htracks.nodup, htracks.mem_iff, htracks.order⟩, ?_⟩
  · intro keyword hkeyword hname t
    have hanswer := htracks.holds_expression hkeyword hname t
    have hcondition := htracks.conditions keyword
    have hevaluator := htracks.evaluators keyword
    rw [remaining?_of_custom hname, Option.or_none] at hcondition
    constructor
    · intro f hf
      rw [hf] at hanswer hcondition hevaluator
      refine ⟨?_, ?_, hanswer⟩
      · rw [Registry.has, hcondition]
        rfl
      · rw [Registry.evaluate, hcondition]
        rfl
    · intro hdead
      rw [hdead] at hanswer hcondition hevaluator
      refine ⟨?_, ?_, hanswer⟩
      · rw [Registry.has, hcondition, Entries.contains, hevaluator]
        rfl
      · rw [Registry.evaluate, hcondition]
        rfl
  · rintro before text later rfl
    exact exists_created before text later

def payday : List Event :=
  [.change (.register "payday" fun t => t.date.day == 31)]

def laterPayday : List Event :=
  [.change (.register "payday" fun t => t.date.day == 30), .change (.register "shift" fun _ => true),
    .change (.remove "payday")]

theorem keywords_payroll :
    IsIdentifier "payday" ∧ "payday" ∉ builtInKeywords ∧
      live? "payday" (changes (payday ++ .create "payday" :: laterPayday)) = none ∧
      (after {} (payday ++ .create "payday" :: laterPayday)).registry.has "payday" = false ∧
      "shift" ∈ (after {} (payday ++ .create "payday" :: laterPayday)).registry.customKeywords ∧
      ∃ e, (after {} (payday ++ .create "payday" :: laterPayday)).created[0]? = some e ∧
        ∀ t, (e.evaluate t).1 = .ok (t.date.day == 31) := by
  have hkeyword : IsIdentifier "payday" :=
    ⟨'p', "ayday".toList, rfl, rfl, List.all_eq_true.mp rfl⟩
  have hname : "payday" ∉ builtInKeywords := by decide
  obtain ⟨hmeaning, ⟨-, hcustom, -⟩, hcreated⟩ :=
    keywords_after (payday ++ .create "payday" :: laterPayday)
  obtain ⟨hbefore, -, -⟩ := keywords_after payday
  obtain ⟨e, he, hanswer⟩ := hcreated payday "payday" laterPayday rfl
  have hdead : live? "payday" (changes (payday ++ .create "payday" :: laterPayday)) = none := rfl
  have hlive : live? "payday" (changes payday) = some fun t => t.date.day == 31 := rfl
  refine ⟨hkeyword, hname, hdead, ?_, (hcustom "shift").mpr rfl, e, he, ?_⟩
  · exact ((hmeaning "payday" hkeyword hname ⟨⟨1970, 1, 1, by decide⟩, .midnight⟩).2 hdead).1
  · intro t
    rw [hanswer]
    exact ((hbefore "payday" hkeyword hname t).1 _ hlive).2.2

end Session

end Placeholder.Temporal
