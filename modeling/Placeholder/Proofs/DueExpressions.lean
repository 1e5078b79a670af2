import Mathlib
import Placeholder.Proofs.CallArguments
import Placeholder.Proofs.Coalescing
import Placeholder.Resolver.Temporal

/-!
# Expressions inside of placeholders

An expression stands in a placeholder as the only argument of `TEMPORAL:isDue`, with quotes around
it or without. The placeholder keeps the text between the parentheses as a whole and trims quotes
off it. What it keeps is the expression up to white space at its ends, and reading an expression
trims that too. So the placeholder answers what the expression answers by itself.
-/

namespace Placeholder

open Temporal (IsIdentifier Evaluator Expression Registry Tree)

/-! ### The text that a placeholder keeps -/

namespace Token

/-- A text without the marks that would be trimmed off with the quotes or begin a default. -/
structure IsEmbeddable (cs : List Char) : Prop where
  unquoted : ∀ c ∈ cs, c ≠ '\'' ∧ c ≠ '"' ∧ c ≠ '\x00'
  unmarked : ¬ "??".toList <:+: cs

theorem isBlank_of_isQuoteMargin {c : Char} (hc : c ≠ '\'' ∧ c ≠ '"' ∧ c ≠ '\x00')
    (h : isQuoteMargin c = true) : Text.isBlank c = true := by
  by_contra hblank
  rw [Bool.not_eq_true] at hblank
  have hmargin := (isQuoteMargin_iff hblank ⟨hc.1, hc.2.1⟩).mpr hc.2.2
  rw [h] at hmargin
  contradiction

/-- Off an embedded text the quotes around it are trimmed, and of the text white space alone. -/
theorem trim_kept {cs front back : List Char} (h : IsEmbeddable cs)
    (hfront : ∀ c ∈ front, isQuoteMargin c = true) (hback : ∀ c ∈ back, isQuoteMargin c = true) :
    Text.trim (Text.trimBy isQuoteMargin (front ++ cs ++ back)) = Text.trim cs := by
  rw [Text.trimBy_padded hfront hback]
  exact Text.trim_trimBy fun c hc => isBlank_of_isQuoteMargin (h.unquoted c hc)

/-- The placeholder that asks whether the expression `e` is due, with `quote` around it. -/
def dueText (quote e : String) : String :=
  "TEMPORAL:" ++ callText "isDue" (quote ++ e ++ quote).toList

theorem isIdentifier_isDue : IsIdentifier "isDue" :=
  ⟨'i', "sDue".toList, rfl, by decide, by simp [Text.isNamePart]⟩

/-- A call behind the temporal mark keeps the whole text between its parentheses. -/
theorem classify_temporal_call {name : String} (hname : IsIdentifier name) {inner : List Char}
    (hinner : ¬ "??".toList <:+: inner) :
    classify ("TEMPORAL:".toList ++ (name.toList ++ '(' :: (inner ++ [')']))) =
      { raw := String.ofList ("TEMPORAL:".toList ++ (name.toList ++ '(' :: (inner ++ [')'])))
        kind := .temporal
        path := []
        function := some name
        args := Argument.decodeAll (Text.trim inner)
        metadata := [("temporal_type", "temporal"),
          ("expression", String.ofList (Text.trimBy isQuoteMargin inner))] } := by
  have hquestion : '?' ∉ "TEMPORAL:".toList ++ name.toList := by
    rw [List.mem_append, not_or]
    exact ⟨by decide, hname.not_mem (by decide)⟩
  have hcut := cut?_call hquestion hinner
  rw [List.append_assoc] at hcut
  have htrim : Text.trim ("TEMPORAL:".toList ++ (name.toList ++ '(' :: (inner ++ [')']))) =
      "TEMPORAL:".toList ++ (name.toList ++ '(' :: (inner ++ [')'])) := by
    have hwhole := trim_call (c := 'T') (by decide) ("EMPORAL:".toList ++ name.toList) inner
    rwa [List.cons_append, List.append_assoc] at hwhole
  have hafter : Text.after? "TEMPORAL:".toList ("TEMPORAL:".toList ++
      (name.toList ++ '(' :: (inner ++ [')']))) = some (name.toList ++ '(' :: (inner ++ [')'])) :=
    Text.after?_append _ _
  have htemporal : isTemporal ("TEMPORAL:".toList ++ (name.toList ++ '(' :: (inner ++ [')']))) =
      true := by
    rw [isTemporal, Text.startsWith, hafter, Option.isSome_some, Bool.true_or, Bool.true_or]
  rw [classify, htrim, classifyTrimmed, hcut]
  dsimp only
  rw [if_pos htemporal, ofTemporal, temporalFamily, hafter]
  dsimp only
  rw [splitCall?_call hname]
  dsimp only
  rw [String.ofList_toList]

theorem toList_dueText (quote e : String) :
    (dueText quote e).toList = "TEMPORAL:".toList ++ ("isDue".toList ++
      '(' :: (quote.toList ++ e.toList ++ quote.toList ++ [')'])) := by
  have hcall : (callText "isDue" (quote ++ e ++ quote).toList).toList =
      "isDue".toList ++ '(' :: ((quote ++ e ++ quote).toList ++ [')']) := String.toList_ofList
  rw [dueText, String.toList_append, hcall, String.toList_append, String.toList_append]

theorem IsEmbeddable.quoted {cs quote : List Char} (h : IsEmbeddable cs)
    (hquote : ∀ c ∈ quote, isQuoteMargin c = true) : ¬ "??".toList <:+: quote ++ cs ++ quote := by
  have hmargin := not_question_of_class (by decide) hquote
  exact fun hin => h.unmarked ((Text.infix_surrounded_iff (by decide) hmargin hmargin cs).mp hin)

end Token

/-! ### What it answers -/

/-- Expressions with the same text up to white space and the same predicates answer the same. -/
theorem Temporal.Expression.holds_congr {e f : Expression} (he : e.Faithful) (hf : f.Faithful)
    (htext : Text.trim e.text.toList = Text.trim f.text.toList)
    (hevaluators : ∀ keyword, e.evaluators.get? keyword = f.evaluators.get? keyword)
    (t : Calendar.DateTime) : e.holds t = f.holds t := by
  have hread : Tree.read e.text = Tree.read f.text := by rw [Tree.read, htext, Tree.read]
  have hanswer : answer e.text e.evaluators t = answer f.text e.evaluators t := by
    rw [answer, hread, answer]
  rw [he.holds_eq, hf.holds_eq, hanswer]
  exact answer_congr (fun keyword _ => hevaluators keyword) f.text t

namespace Clock

/-- No keyword has two predicates in the registry or two in the resolver. -/
structure Keyed (k : Clock) : Prop where
  registry : ∀ r ∈ k.registry, r.customKeywords.Nodup
  evaluators : k.evaluators.keys.Nodup

/-- The predicate of a keyword: that of the resolver, and that of the registry where it has none. -/
def evaluator? (k : Clock) (keyword : String) : Option Evaluator :=
  (k.evaluators.get? keyword).or (k.registry.bind fun r => r.evaluators.get? keyword)

variable {k : Clock}

theorem text_expression (k : Clock) (text : String) : (k.expression text).text = text := by
  rw [expression, Expression.registerAll_eq_after, Expression.after_text]
  cases k.registry with
  | none => rfl
  | some r => exact r.text_expression text

theorem faithful_expression (k : Clock) (text : String) : (k.expression text).Faithful := by
  rw [expression, Expression.registerAll_eq_after]
  refine Expression.after_faithful ?_ _
  cases k.registry with
  | none => exact Expression.faithful_of_unread rfl
  | some r => exact r.faithful_expression text

theorem Keyed.get?_expression (h : k.Keyed) (text keyword : String) :
    (k.expression text).evaluators.get? keyword = k.evaluator? keyword := by
  rw [expression, Expression.registerAll_eq_after, Expression.after_evaluators,
    Expression.registrations_map_register, Entries.get?_insertAll h.evaluators, evaluator?]
  congr 1
  cases hregistry : k.registry with
  | none => rfl
  | some r =>
    have hbase : ((some r).map fun r => r.expression text).getD { text } = r.expression text := rfl
    rw [hbase, r.evaluators_expression, Entries.get?_ofList (h.registry r hregistry)]
    rfl

/-- A placeholder that asks whether an expression is due, in quotes or without, answers or fails as
the expression does by itself. -/
theorem resolve_dueText (h : k.Keyed) {e : String} (he : Token.IsEmbeddable e.toList)
    {f : Expression} (htext : f.text = e) (hf : f.Faithful)
    (hevaluators : ∀ keyword, f.evaluators.get? keyword = k.evaluator? keyword) {quote : String}
    (hquote : quote ∈ ["'", "\"", ""]) (c : Context) :
    (Token.parse (Token.dueText quote e)).kind = .temporal ∧
      (Resolver.temporal k).resolve (Token.parse (Token.dueText quote e)) c =
        (f.holds k.now).map .bool := by
  have hmargin : ∀ c ∈ quote.toList, Token.isQuoteMargin c = true := by
    simp only [List.mem_cons, List.not_mem_nil, or_false] at hquote
    rcases hquote with rfl | rfl | rfl <;> simp [Token.isQuoteMargin]
  have hparse := Token.classify_temporal_call Token.isIdentifier_isDue (he.quoted hmargin)
  rw [← Token.toList_dueText] at hparse
  refine ⟨by rw [Token.parse, hparse], ?_⟩
  have hkept : ((k.expression (String.ofList (Text.trimBy Token.isQuoteMargin
      (quote.toList ++ e.toList ++ quote.toList)))).holds k.now) = f.holds k.now := by
    refine Expression.holds_congr (k.faithful_expression _) hf ?_ (fun keyword => ?_) k.now
    · rw [text_expression, String.toList_ofList, htext]
      exact Token.trim_kept he hmargin hmargin
    · rw [h.get?_expression, hevaluators]
  rw [Token.parse, hparse, ← hkept]
  rfl

/-- The keywords of a registry and of a resolver are distinct however they were registered. -/
theorem keyed_registered (now : Calendar.DateTime) (history : Option (List Registry.Event))
    (own : List (String × Evaluator)) :
    Keyed { now, registry := history.map Registry.fresh.after,
            evaluators := Entries.ofList own } where
  registry := by
    intro r hr
    obtain ⟨events, -, rfl⟩ := Option.map_eq_some_iff.mp hr
    exact (Registry.tracks_after events).nodup
  evaluators := Entries.nodup_keys_ofList own

/-- The resolver has a payday of its own beside that of the registry. -/
def saturday : Clock where
  now := ⟨⟨2025, 12, 20, by decide⟩, Calendar.Time.midnight⟩
  registry := some (Registry.fresh.after [.register "payday" fun t => t.date.day == 31])
  evaluators := Entries.ofList [("payday", fun t => t.date.day == 20)]

def thirdSaturday : Expression :=
  ((Registry.fresh.after [.register "payday" fun t => t.date.day == 31]).expression
    "nth:saturday:1,3 && (payday || never)").register "payday" fun t => t.date.day == 20

theorem resolve_thirdSaturday :
    saturday.Keyed ∧ Token.IsEmbeddable "nth:saturday:1,3 && (payday || never)".toList ∧
      thirdSaturday.text = "nth:saturday:1,3 && (payday || never)" ∧ thirdSaturday.Faithful ∧
      (∀ keyword, thirdSaturday.evaluators.get? keyword = saturday.evaluator? keyword) ∧
      (Token.parse "TEMPORAL:isDue('nth:saturday:1,3 && (payday || never)')").kind = .temporal ∧
      (Resolver.temporal saturday).resolve
        (Token.parse "TEMPORAL:isDue('nth:saturday:1,3 && (payday || never)')") Context.empty =
          .ok (.bool true) ∧
      (Resolver.temporal saturday).resolve
        (Token.parse "TEMPORAL:isDue(nth:saturday:1,3 && (payday || never))") Context.empty =
          .ok (.bool true) := by
  have hkeyed : saturday.Keyed := keyed_registered _ (some _) _
  have hembeddable : Token.IsEmbeddable "nth:saturday:1,3 && (payday || never)".toList :=
    ⟨by simp, by decide⟩
  have htext : thirdSaturday.text = "nth:saturday:1,3 && (payday || never)" := rfl
  have hfaithful : thirdSaturday.Faithful := Expression.faithful_of_unread rfl
  have hevaluators : ∀ keyword,
      thirdSaturday.evaluators.get? keyword = saturday.evaluator? keyword :=
    hkeyed.get?_expression _
  have hquoted : Token.dueText "'" "nth:saturday:1,3 && (payday || never)" =
      "TEMPORAL:isDue('nth:saturday:1,3 && (payday || never)')" := by decide
  have hbare : Token.dueText "" "nth:saturday:1,3 && (payday || never)" =
      "TEMPORAL:isDue(nth:saturday:1,3 && (payday || never))" := by decide
  have hdue : thirdSaturday.holds saturday.now = .ok true := by rfl
  have hquotes : "'" ∈ ["'", "\"", ""] ∧ "" ∈ ["'", "\"", ""] := by decide
  obtain ⟨hkind, hresolve⟩ := resolve_dueText hkeyed hembeddable htext hfaithful hevaluators
    hquotes.1 Context.empty
  have hunquoted := resolve_dueText hkeyed hembeddable htext hfaithful hevaluators
    hquotes.2 Context.empty
  rw [hquoted] at hkind hresolve
  rw [hbare] at hunquoted
  rw [hdue] at hresolve hunquoted
  exact ⟨hkeyed, hembeddable, htext, hfaithful, hevaluators, hkind, hresolve, hunquoted.2⟩

end Clock

end Placeholder
