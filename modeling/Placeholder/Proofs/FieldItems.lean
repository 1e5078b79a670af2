import Mathlib
import Placeholder.Proofs.ScheduleFields

/-!
# Items of a field as they are written

Words of letters, stars and steps are read back as the items they were written for, where a comma
or nothing follows. So a field of such items is read as all of them.
-/

namespace Placeholder.Temporal.Cron

open Clause (Stops stops_cons takeWhile_append_of_stops Follows)

/-! ### Items -/

/-- A word of letters, as the names of weekdays are. -/
structure IsLetters (w : List Char) : Prop where
  ne_nil : w ≠ []
  isAlpha : ∀ c ∈ w, c.isAlpha = true

def Span.text : Span → List Char
  | all => ['*']
  | point n => Text.natDigits n
  | range first last => Text.natDigits first ++ '-' :: Text.natDigits last
  | names first last => first ++ '-' :: last

def Item.text : Item → List Char
  | span s => s.text
  | stepped s step => s.text ++ '/' :: Text.natDigits step
  | name n => n

/-- A span without numbers. -/
inductive Span.Named : Span → Prop where
  | all : Named .all
  | names {first last : List Char} : IsLetters first → IsLetters last → Named (.names first last)

/-- An item without numbers but for its step. -/
inductive Item.Named : Item → Prop where
  | span {s : Span} : s.Named → Named (.span s)
  | stepped {s : Span} {step : Nat} : s.Named → step < UInt32.size → Named (.stepped s step)
  | name {n : List Char} : IsLetters n → Named (.name n)

theorem skipBlanks_of_follows {rest : List Char} (h : Follows rest) : skipBlanks rest = rest := by
  rcases h with rfl | ⟨tail, rfl⟩ <;> rfl

theorem IsLetters.exists_cons {w : List Char} (h : IsLetters w) :
    ∃ c cs, w = c :: cs ∧ c.isAlpha = true := by
  obtain ⟨c, cs, rfl⟩ := List.exists_cons_of_ne_nil h.ne_nil
  exact ⟨c, cs, rfl, h.isAlpha c List.mem_cons_self⟩

section Names

variable {v w rest : List Char}

theorem IsLetters.skipBlanks_append (h : IsLetters w) (rest : List Char) :
    skipBlanks (w ++ rest) = w ++ rest := by
  obtain ⟨c, cs, rfl, hc⟩ := h.exists_cons
  refine skipBlanks_cons_of_ne ?_ ?_ (cs ++ rest) <;>
  · rintro rfl
    cases hc

theorem takeName?_letters (hw : IsLetters w) (hrest : Stops Char.isAlpha rest) :
    takeName? (w ++ rest) = some (w, skipBlanks rest) := by
  obtain ⟨htake, hdrop⟩ := takeWhile_append_of_stops hw.isAlpha hrest
  rw [takeName?, hw.skipBlanks_append, htake, hdrop, List.isEmpty_eq_false_iff.mpr hw.ne_nil]
  rfl

theorem takeNumber?_letters (hw : IsLetters w) (rest : List Char) :
    takeNumber? (w ++ rest) = none := by
  rw [takeNumber?, hw.skipBlanks_append]
  obtain ⟨c, cs, rfl, hc⟩ := hw.exists_cons
  have hdigit : c.isDigit = false :=
    Lexeme.not_isDigit_of_isNameStart (by simp [Text.isNameStart, hc])
  rw [List.cons_append, List.takeWhile_cons_of_neg (by simp [hdigit])]
  rfl

theorem takeSpan?_letters (hw : IsLetters w) (rest : List Char) :
    takeSpan? true (w ++ rest) =
      (takePair? takeName? (w ++ rest)).map fun ((a, b), rest) => (.names a b, rest) := by
  have hbounds : takeBounds? (w ++ rest) =
      (takePair? takeName? (w ++ rest)).map fun ((a, b), rest) => (.names a b, rest) := by
    have hpair : takePair? takeNumber? (w ++ rest) = none := by
      rw [takePair?, takeNumber?_letters hw]
    rw [takeBounds?, hpair, takeNumber?_letters hw]
  rw [← hbounds]
  obtain ⟨c, cs, rfl, hc⟩ := hw.exists_cons
  unfold takeSpan?
  split
  · rename_i heq
    rw [(List.cons.inj heq).1] at hc
    cases hc
  · rename_i heq
    rw [(List.cons.inj heq).1] at hc
    cases hc
  · rfl

theorem takeSpan?_names (hv : IsLetters v) (hw : IsLetters w) (hrest : Stops Char.isAlpha rest) :
    takeSpan? true (v ++ '-' :: (w ++ rest)) = some (.names v w, skipBlanks rest) := by
  have hdash : Stops Char.isAlpha ('-' :: (w ++ rest)) := stops_cons.mpr rfl
  have hfirst := takeName?_letters hv hdash
  rw [skipBlanks_cons_of_ne (by decide) (by decide)] at hfirst
  rw [takeSpan?_letters hv, takePair?, hfirst]
  simp only [takeName?_letters hw hrest, Option.map_some]

theorem takeSpan?_named {s : Span} (hs : s.Named) (hrest : Stops Char.isAlpha rest)
    (hskip : skipBlanks rest = rest) : takeSpan? true (s.text ++ rest) = some (s, rest) := by
  cases hs with
  | all => rfl
  | names hv hw =>
    rw [Span.text, List.append_assoc, List.cons_append, takeSpan?_names hv hw hrest, hskip]

/-- A name is an item where no second name follows. -/
theorem takeItem?_letters (hw : IsLetters w) (hrest : Stops Char.isAlpha rest)
    (hskip : skipBlanks rest = rest) (hdash : rest.head? ≠ some '-') :
    takeItem? true (w ++ rest) = some (.name w, rest) := by
  have hname := takeName?_letters hw hrest
  rw [hskip] at hname
  rw [takeItem?, takeSpan?_letters hw, takePair?_eq_none hname hdash, Option.map_none, hname]
  rfl

theorem takeItem?_stepped {cs : List Char} {s : Span} {step : Nat} (hstep : step < UInt32.size)
    (hspan : takeSpan? true cs = some (s, '/' :: (Text.natDigits step ++ rest)))
    (hrest : Stops Char.isDigit rest) :
    takeItem? true cs = some (.stepped s step, skipBlanks rest) := by
  have hdigits := isNumberBelow_natDigits hstep
  have hnumber := takeNumber?_digits hdigits.ne_nil hdigits.isDigit hdigits.lt hrest
  rw [Text.digitsValue_natDigits] at hnumber
  simp only [takeItem?, hspan, hnumber]

end Names

theorem takeItem?_text {item : Item} (h : item.Named) {rest : List Char} (hrest : Follows rest) :
    takeItem? true (item.text ++ rest) = some (item, rest) := by
  have hskip := skipBlanks_of_follows hrest
  have hhead : ∀ c, c ≠ ',' → rest.head? ≠ some c := by
    intro c hc
    rcases hrest with rfl | ⟨tail, rfl⟩
    · simp
    · simpa using hc.symm
  cases h with
  | span hs =>
    exact takeItem?_of_span (takeSpan?_named hs (hrest.stops rfl) hskip) (hhead '/' (by decide))
  | @stepped s step hs hstep =>
    have hslash : Stops Char.isAlpha ('/' :: (Text.natDigits step ++ rest)) :=
      stops_cons.mpr rfl
    have hspan := takeSpan?_named hs hslash rfl
    have hitem := takeItem?_stepped hstep hspan (hrest.stops rfl)
    rw [hskip] at hitem
    rwa [Item.text, List.append_assoc]
  | name hn => exact takeItem?_letters hn (hrest.stops rfl) hskip (hhead '-' (by decide))

/-! ### Fields -/

theorem Span.Named.skipBlanks_append {s : Span} (h : s.Named) (rest : List Char) :
    skipBlanks (s.text ++ rest) = s.text ++ rest := by
  cases h with
  | all => rfl
  | names hv hw =>
    rw [Span.text, List.append_assoc]
    exact hv.skipBlanks_append _

theorem Item.Named.skipBlanks_append {item : Item} (h : item.Named) (rest : List Char) :
    skipBlanks (item.text ++ rest) = item.text ++ rest := by
  cases h with
  | span hs => exact hs.skipBlanks_append rest
  | stepped hs =>
    rw [Item.text, List.append_assoc]
    exact hs.skipBlanks_append _
  | name hn => exact hn.skipBlanks_append rest

theorem takeItems_of_head?_ne (open_ : Bool) (fuel : Nat) {cs : List Char}
    (h : cs.head? ≠ some ',') : takeItems open_ fuel cs = ([], cs) := by
  unfold takeItems
  split
  · exact absurd rfl h
  · rfl

theorem follows_flatMap (items : List Item) {tail : List Char} (htail : Follows tail) :
    Follows (items.flatMap (fun i => ',' :: i.text) ++ tail) := by
  cases items with
  | nil => exact htail
  | cons item items => exact Or.inr ⟨_, rfl⟩

theorem length_le_length_flatMap (items : List Item) :
    items.length ≤ (items.flatMap fun i => ',' :: i.text).length := by
  induction items with
  | nil => exact Nat.le_refl 0
  | cons item items ih =>
    simp only [List.flatMap_cons, List.length_append, List.length_cons]
    omega

theorem takeItems_append {items : List Item} (h : ∀ i ∈ items, i.Named) {tail : List Char}
    (htail : Follows tail) (fuel : Nat) :
    takeItems true (fuel + items.length) (items.flatMap (fun i => ',' :: i.text) ++ tail) =
      (items ++ (takeItems true fuel tail).1, (takeItems true fuel tail).2) := by
  induction items with
  | nil => rfl
  | cons item items ih =>
    obtain ⟨hitem, hitems⟩ := List.forall_mem_cons.mp h
    have hread := takeItem?_text hitem (follows_flatMap items htail)
    rw [List.flatMap_cons, List.append_assoc, List.cons_append, List.length_cons, ← Nat.add_assoc,
      takeItems, hread]
    simp only [ih hitems]
    rfl

/-- The items of a field, each with a comma in front, and what stands behind them. -/
theorem takeField?_items {u : TimeUnit} {items : List Item} (hne : items ≠ [])
    (hitems : ∀ i ∈ items, i.Named) {field tail : List Char} (htail : Follows tail)
    (hfield : ',' :: field = items.flatMap (fun i => ',' :: i.text) ++ tail) :
    skipBlanks field = field ∧ ∃ fuel, tail.length ≤ fuel ∧
      takeField? u true field =
        (fieldValues? u (items ++ (takeItems true fuel tail).1)).map fun values =>
          (values, skipBlanks (takeItems true fuel tail).2) := by
  obtain ⟨item, items, rfl⟩ := List.exists_cons_of_ne_nil hne
  obtain ⟨hitem, hitems⟩ := List.forall_mem_cons.mp hitems
  rw [List.flatMap_cons, List.append_assoc, List.cons_append] at hfield
  rw [(List.cons.inj hfield).2]
  have hskip := hitem.skipBlanks_append (items.flatMap (fun i => ',' :: i.text) ++ tail)
  have hlength : tail.length + items.length ≤
      (items.flatMap (fun i => ',' :: i.text) ++ tail).length := by
    have hle := length_le_length_flatMap items
    rw [List.length_append]
    omega
  obtain ⟨extra, hextra⟩ := Nat.exists_eq_add_of_le hlength
  have hfuel : (items.flatMap (fun i => ',' :: i.text) ++ tail).length =
      tail.length + extra + items.length := by
    omega
  refine ⟨hskip, tail.length + extra, Nat.le_add_right _ _, ?_⟩
  rw [takeField?, hskip, takeItem?_text hitem (follows_flatMap items htail)]
  simp only [Option.bind_eq_bind, Option.bind_some, hfuel, takeItems_append hitems htail,
    List.cons_append]
  cases fieldValues? u (item :: (items ++ (takeItems true (tail.length + extra) tail).1)) <;> rfl

end Placeholder.Temporal.Cron
