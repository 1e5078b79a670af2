import Mathlib
import Placeholder.Proofs.FieldItems

/-!
# Lists of weekdays in a cron expression

The last field of a cron expression lists weekdays by their numbers, where 0 and 7 are both Sunday.
The numbers are rewritten into names before the schedule is read. A range up to 7 becomes a range
up to Saturday and the Sunday behind it. That loses the week in `0-7`, which becomes a range from
Sunday to Sunday, and it leaves a step behind the lone Sunday, which no schedule has.
-/

namespace Placeholder.Temporal.Cron

open Clause (Stops stops_cons)

/-! ### Lists of weekdays -/

/-- An item of a list of weekdays, numbered from 0 for Sunday up to 7 for Sunday again. -/
inductive DayItem where
  | day (d : Nat)
  | range (first last : Nat)
  | stepped (first last step : Nat)
  | every
  | everyStep (step : Nat)
  deriving DecidableEq, Repr

namespace DayItem

def WellFormed : DayItem → Prop
  | day d => d ≤ 7
  | range first last => first ≤ last ∧ last ≤ 7
  | stepped first last step => (first ≤ last ∧ last ≤ 7) ∧ 1 ≤ step ∧ step ≤ 7
  | every => True
  | everyStep step => 1 ≤ step ∧ step ≤ 7

def text : DayItem → List Char
  | day d => Text.natDigits d
  | range first last => Text.natDigits first ++ '-' :: Text.natDigits last
  | stepped first last step =>
    Text.natDigits first ++ '-' :: Text.natDigits last ++ '/' :: Text.natDigits step
  | every => ['*']
  | everyStep step => '*' :: '/' :: Text.natDigits step

/-- Whether a weekday from 0 for Sunday to 6 for Saturday is one of the item's. -/
def Includes : DayItem → Nat → Prop
  | day d, n => n = d % 7
  | range first last, n => ∃ x, first ≤ x ∧ x ≤ last ∧ n = x % 7
  | stepped first last step, n => ∃ k, first + k * step ≤ last ∧ n = (first + k * step) % 7
  | every, n => n ≤ 6
  | everyStep step, n => ∃ k, k * step ≤ 6 ∧ n = k * step

/-- From a later weekday in steps up to the Sunday behind Saturday. -/
def StepsToSunday : DayItem → Prop
  | stepped first last _ => last = 7 ∧ 1 ≤ first ∧ first ≤ 6
  | _ => False

/-- From Sunday to Sunday. -/
def SpansWeek : DayItem → Prop
  | range first last => first = 0 ∧ last = 7
  | stepped first last _ => first = 0 ∧ last = 7
  | _ => False

instance (i : DayItem) : Decidable i.WellFormed := by
  cases i <;> unfold WellFormed <;> infer_instance

instance (i : DayItem) : Decidable i.StepsToSunday := by
  cases i <;> unfold StepsToSunday <;> infer_instance

instance (i : DayItem) : Decidable i.SpansWeek := by
  cases i <;> unfold SpansWeek <;> infer_instance

end DayItem

/-- The field of a list of weekdays. -/
def dayList (items : List DayItem) : List Char :=
  [','].intercalate (items.map DayItem.text)

/-! ### Names for numbers -/

def shortName (d : Nat) : List Char :=
  (shortDayNames.getD (d % 7) "").toList

theorem dayName_natDigits {d : Nat} (h : d ≤ 7) : dayName (Text.natDigits d) = shortName d := by
  have hall : ∀ d < 8, dayName (Text.natDigits d) = shortName d := by decide
  exact hall d (Nat.lt_succ_of_le h)

theorem shortName_mod (d : Nat) : shortName (d % 7) = shortName d := by
  rw [shortName, Nat.mod_mod, shortName]

theorem isLetters_shortName (d : Nat) : IsLetters (shortName d) := by
  have hall : ∀ d < 7, shortName d ≠ [] ∧ (shortName d).all Char.isAlpha = true := by decide
  obtain ⟨hne, halpha⟩ := hall (d % 7) (Nat.mod_lt d (by decide))
  rw [shortName_mod] at hne halpha
  exact ⟨hne, List.all_eq_true.mp halpha⟩

theorem named?_shortName (d : Nat) :
    TimeUnit.weekday.named? (shortName d) = some (d % 7 + 1) := by
  have hall : ∀ d < 7, TimeUnit.weekday.named? (shortName d) = some (d + 1) := by decide
  rw [← shortName_mod]
  exact hall (d % 7) (Nat.mod_lt d (by decide))

theorem not_mem_natDigits {c : Char} (hc : c.isDigit = false) (n : Nat) :
    c ∉ Text.natDigits n := by
  intro hmem
  rw [Text.isDigit_of_mem_natDigits hmem] at hc
  cases hc

/-- The names for a range, which goes on behind Saturday when it ends on 7. -/
theorem dayRangeNames_range {first last : Nat} (hfirst : first ≤ last) (hlast : last ≤ 7) :
    dayRangeNames (Text.natDigits first ++ '-' :: Text.natDigits last) =
      if last = 7 ∧ 1 ≤ first ∧ first ≤ 6 then shortName first ++ "-Sat,Sun".toList
      else shortName first ++ '-' :: shortName last := by
  have hend : ∀ d < 8, Text.natDigits d = ['7'] ↔ d = 7 := by decide
  have hsunday : ∀ d < 8, shortName d ≠ "Sun".toList ↔ 1 ≤ d ∧ d ≤ 6 := by decide
  rw [dayRangeNames, Text.cut?_char (not_mem_natDigits (by decide) first)]
  simp only [dayName_natDigits hlast, dayName_natDigits (hfirst.trans hlast),
    hend last (Nat.lt_succ_of_le hlast), hsunday first (Nat.lt_succ_of_le (hfirst.trans hlast))]

namespace DayItem

/-- The items with names that stand for an item with numbers. -/
def items : DayItem → List Item
  | day d => [.name (shortName d)]
  | range first last =>
    if last = 7 ∧ 1 ≤ first ∧ first ≤ 6 then
      [.span (.names (shortName first) (shortName 6)), .name (shortName 0)]
    else [.span (.names (shortName first) (shortName last))]
  | stepped first last step => [.stepped (.names (shortName first) (shortName last)) step]
  | every => [.span .all]
  | everyStep step => [.stepped .all step]

theorem named_items {i : DayItem} (h : i.WellFormed) : ∀ j ∈ i.items, j.Named := by
  have hsize : 7 < UInt32.size := by decide
  have hnames : ∀ a b, (Span.names (shortName a) (shortName b)).Named := fun a b =>
    .names (isLetters_shortName a) (isLetters_shortName b)
  cases i with
  | day d => exact List.forall_mem_singleton.mpr (.name (isLetters_shortName d))
  | range first last =>
    rw [items]
    split
    · exact List.forall_mem_cons.mpr
        ⟨.span (hnames first 6), List.forall_mem_singleton.mpr (.name (isLetters_shortName 0))⟩
    · exact List.forall_mem_singleton.mpr (.span (hnames first last))
  | stepped first last step =>
    exact List.forall_mem_singleton.mpr (.stepped (hnames first last) (h.2.2.trans_lt hsize))
  | every => exact List.forall_mem_singleton.mpr (.span .all)
  | everyStep step => exact List.forall_mem_singleton.mpr (.stepped .all (h.2.trans_lt hsize))

theorem dayItemNames_stepped {first last : Nat} (hfirst : first ≤ last) (hlast : last ≤ 7)
    (step : Nat) :
    dayItemNames (stepped first last step).text =
      (if last = 7 ∧ 1 ≤ first ∧ first ≤ 6 then shortName first ++ "-Sat,Sun".toList
      else shortName first ++ '-' :: shortName last) ++ '/' :: Text.natDigits step := by
  have hslash : '/' ∉ Text.natDigits first ++ '-' :: Text.natDigits last := by
    have hmem := not_mem_natDigits (show '/'.isDigit = false by decide)
    simp [hmem]
  rw [text, dayItemNames, Text.cut?_char hslash, ← dayRangeNames_range hfirst hlast]

/-- An item is rewritten into the items that stand for it, unless its step stands behind Sunday. -/
theorem dayItemNames_text {i : DayItem} (h : i.WellFormed) (hstep : ¬ i.StepsToSunday) :
    ',' :: dayItemNames i.text = i.items.flatMap fun j => ',' :: j.text := by
  have hslash := not_mem_natDigits (show '/'.isDigit = false by decide)
  have hdash := not_mem_natDigits (show '-'.isDigit = false by decide)
  cases i with
  | day d =>
    have hnames : dayItemNames (Text.natDigits d) = shortName d := by
      rw [dayItemNames, Text.cut?_of_not_mem (hslash d), dayRangeNames,
        Text.cut?_of_not_mem (hdash d)]
      exact dayName_natDigits h
    simp [text, items, Item.text, hnames]
  | range first last =>
    have hnone : '/' ∉ Text.natDigits first ++ '-' :: Text.natDigits last := by
      simp [hslash]
    have hsaturday : shortName 6 = "Sat".toList ∧ shortName 0 = "Sun".toList := by decide
    rw [text, dayItemNames, Text.cut?_of_not_mem hnone]
    simp only [dayRangeNames_range h.1 h.2, items]
    split <;> simp [Item.text, Span.text, hsaturday]
  | stepped first last step =>
    have hwrap : ¬ (last = 7 ∧ 1 ≤ first ∧ first ≤ 6) := hstep
    rw [dayItemNames_stepped h.1.1 h.1.2, if_neg hwrap]
    simp [items, Item.text, Span.text]
  | every => rfl
  | everyStep step =>
    have hcut := Text.cut?_char (show '/' ∉ ['*'] by decide) (Text.natDigits step)
    rw [List.singleton_append] at hcut
    have hstar : dayRangeNames ['*'] = ['*'] := by decide
    simp [text, dayItemNames, hcut, hstar, items, Item.text, Span.text]

/-! ### Values of a list -/

/-- From one weekday to another in steps, counted from 1 for Sunday. -/
def weekdayRange (first last step : Nat) : Progression :=
  ⟨first + 1, last + 1, step⟩

def progressions : DayItem → List Progression
  | day d => [weekdayRange (d % 7) (d % 7) 1]
  | range first last =>
    if last = 7 ∧ 1 ≤ first ∧ first ≤ 6 then [weekdayRange first 6 1, weekdayRange 0 0 1]
    else [weekdayRange (first % 7) (last % 7) 1]
  | stepped first last step => [weekdayRange (first % 7) (last % 7) step]
  | every => [weekdayRange 0 6 1]
  | everyStep step => [weekdayRange 0 6 step]

theorem reaches_weekdayRange {first last step n : Nat} :
    (weekdayRange first last step).reaches (n + 1) = true ↔
      (first ≤ n ∧ n ≤ last) ∧ (n - first) % step = 0 := by
  simp [Progression.reaches, weekdayRange]

theorem ends?_names {first last : Nat} (h : first % 7 ≤ last % 7) :
    (Span.names (shortName first) (shortName last)).ends? .weekday =
      some (first % 7 + 1, last % 7 + 1) := by
  have hhas : ∀ d, TimeUnit.weekday.has (d % 7 + 1) = true := by
    intro d
    have hlt := Nat.mod_lt d (show 0 < 7 by decide)
    exact has_iff.mpr ⟨Nat.le_add_left 1 _, hlt⟩
  rw [Span.ends?, named?_shortName, named?_shortName]
  simp only [Option.bind_eq_bind, Option.bind_some, properRange?, hhas, Bool.and_self,
    Bool.true_and, decide_eq_true_eq, Nat.add_le_add_iff_right]
  exact if_pos h

theorem mapM_items {i : DayItem} (h : i.WellFormed) (hstep : ¬ i.StepsToSunday) :
    i.items.mapM (Item.progression? .weekday) = some i.progressions := by
  cases i with
  | day d => simp [items, progressions, weekdayRange, Item.progression?, named?_shortName]
  | range first last =>
    obtain ⟨hfirst, hlast⟩ := h
    simp only [items, progressions]
    split
    · rename_i hwrap
      have hends := @ends?_names first 6 (by omega)
      have hmod : first % 7 = first := Nat.mod_eq_of_lt (by omega)
      simp [weekdayRange, Item.progression?, hends, named?_shortName, hmod]
    · rename_i hwrap
      have hends := @ends?_names first last (by omega)
      simp [weekdayRange, Item.progression?, hends]
  | stepped first last step =>
    obtain ⟨⟨hfirst, hlast⟩, hpos, -⟩ := h
    have hwrap : ¬ (last = 7 ∧ 1 ≤ first ∧ first ≤ 6) := hstep
    have hends := @ends?_names first last (by omega)
    have hne : step ≠ 0 := by omega
    simp [items, progressions, weekdayRange, Item.progression?, Span.steppedEnds?, hends, hne]
  | every => rfl
  | everyStep step =>
    have hne : step ≠ 0 := Nat.ne_of_gt h.1
    have hends : Span.all.steppedEnds? .weekday = some (1, 7) := rfl
    simp [items, progressions, weekdayRange, Item.progression?, hends, hne]

/-- The weekdays of a range are its steps, counted from its first day. -/
theorem reaches_weekdayRange_iff_step {first last step n : Nat} :
    (weekdayRange first last step).reaches (n + 1) = true ↔
      n ≤ last ∧ ∃ k, n = first + k * step := by
  rw [reaches_weekdayRange, ← Nat.dvd_iff_mod_eq_zero]
  constructor
  · intro hreach
    obtain ⟨⟨hfirst, hlast⟩, k, hk⟩ := hreach
    exact ⟨hlast, k, by rw [Nat.mul_comm k, ← hk]; omega⟩
  · intro hsteps
    obtain ⟨hlast, k, hk⟩ := hsteps
    exact ⟨⟨by omega, hlast⟩, k, by rw [hk, Nat.mul_comm k]; omega⟩

theorem exists_reaches_range {first last : Nat} (h : (range first last).WellFormed) {n : Nat}
    (hn : n < 7) :
    (∃ p ∈ (range first last).progressions, p.reaches (n + 1) = true) ↔
      (range first last).SpansWeek ∧ n = 0 ∨
        ¬ (range first last).SpansWeek ∧ (range first last).Includes n := by
  obtain ⟨hfirst, hlast⟩ := h
  simp only [progressions, SpansWeek, Includes]
  split
  · rename_i hwrap
    simp only [List.mem_cons, List.not_mem_nil, or_false, exists_eq_or_imp, exists_eq_left,
      reaches_weekdayRange, Nat.mod_one, and_true]
    constructor
    · intro hreach
      refine Or.inr ⟨by omega, if n = 0 then 7 else n, ?_⟩
      split <;> omega
    · intro hincludes
      rcases hincludes with ⟨hboth, -⟩ | ⟨-, x, hx⟩ <;> omega
  · simp only [List.mem_singleton, exists_eq_left, reaches_weekdayRange, Nat.mod_one, and_true]
    by_cases hweek : first = 0 ∧ last = 7
    · omega
    · constructor
      · intro hreach
        exact Or.inr ⟨hweek, if first = 7 then 7 else n, by split <;> omega⟩
      · intro hincludes
        rcases hincludes with ⟨hboth, -⟩ | ⟨-, x, hx⟩
        · exact absurd hboth hweek
        · omega

theorem exists_reaches_stepped {first last step : Nat} (h : (stepped first last step).WellFormed)
    (hstep : ¬ (stepped first last step).StepsToSunday) {n : Nat} (hn : n < 7) :
    (∃ p ∈ (stepped first last step).progressions, p.reaches (n + 1) = true) ↔
      (stepped first last step).SpansWeek ∧ n = 0 ∨
        ¬ (stepped first last step).SpansWeek ∧ (stepped first last step).Includes n := by
  obtain ⟨⟨hfirst, hlast⟩, hpos, -⟩ := h
  have hwrap : ¬ (last = 7 ∧ 1 ≤ first ∧ first ≤ 6) := hstep
  simp only [progressions, List.mem_singleton, exists_eq_left, reaches_weekdayRange_iff_step,
    SpansWeek, Includes]
  by_cases hsunday : last = 7
  · -- Both ends are Sunday, and no step leads away from it.
    subst hsunday
    have hfirst' : first % 7 = 0 := by omega
    rw [hfirst']
    constructor
    · intro hreach
      obtain rfl : n = 0 := by omega
      by_cases hweek : first = 0
      · exact Or.inl ⟨⟨hweek, rfl⟩, rfl⟩
      · exact Or.inr ⟨fun hboth => hweek hboth.1, 0, by omega⟩
    · intro hincludes
      have hzero : n = 0 := by
        rcases hincludes with ⟨-, hn⟩ | ⟨hweek, k, hle, hn⟩
        · exact hn
        · omega
      exact ⟨by omega, 0, by omega⟩
  · have hmod : first % 7 = first ∧ last % 7 = last := by omega
    rw [hmod.1, hmod.2]
    constructor
    · intro hreach
      obtain ⟨hle, k, hk⟩ := hreach
      exact Or.inr ⟨fun hweek => hsunday hweek.2, k, by omega⟩
    · intro hincludes
      obtain ⟨k, hle, hk⟩ := (hincludes.resolve_left fun hweek => hsunday hweek.1.2).2
      exact ⟨by omega, k, by omega⟩

/-- The values of an item are its weekdays, except that only Sunday is left of a whole week. -/
theorem exists_reaches_iff {i : DayItem} (h : i.WellFormed) (hstep : ¬ i.StepsToSunday) {n : Nat}
    (hn : n < 7) :
    (∃ p ∈ i.progressions, p.reaches (n + 1) = true) ↔
      i.SpansWeek ∧ n = 0 ∨ ¬ i.SpansWeek ∧ i.Includes n := by
  cases i with
  | day d =>
    simp only [progressions, List.mem_singleton, exists_eq_left, reaches_weekdayRange, SpansWeek,
      Includes, Nat.mod_one, false_and, not_false_eq_true, true_and, and_true, false_or]
    omega
  | range first last => exact exists_reaches_range h hn
  | stepped first last step => exact exists_reaches_stepped h hstep hn
  | every =>
    simp only [progressions, List.mem_singleton, exists_eq_left, reaches_weekdayRange, SpansWeek,
      Includes, Nat.mod_one, false_and, not_false_eq_true, true_and, and_true, false_or]
    omega
  | everyStep step =>
    simp only [progressions, List.mem_singleton, exists_eq_left, reaches_weekdayRange_iff_step,
      SpansWeek, Includes, false_and, not_false_eq_true, true_and, false_or, Nat.zero_add]
    constructor
    · intro hreach
      obtain ⟨hle, k, hk⟩ := hreach
      exact ⟨k, hk ▸ hle, hk⟩
    · intro hincludes
      obtain ⟨k, hle, hk⟩ := hincludes
      exact ⟨hk ▸ hle, k, hk⟩

end DayItem

section Lists

variable {items : List DayItem}

/-- The values that the list denotes, counted from 1 for Sunday. -/
def weekdaysOf (items : List DayItem) : List Nat :=
  TimeUnit.weekday.values.filter fun n => (items.flatMap DayItem.progressions).any (·.reaches n)

theorem mapM_flatMap_items (hitems : ∀ i ∈ items, i.WellFormed)
    (hstep : ∀ i ∈ items, ¬ i.StepsToSunday) :
    (items.flatMap DayItem.items).mapM (Item.progression? .weekday) =
      some (items.flatMap DayItem.progressions) := by
  induction items with
  | nil => rfl
  | cons i items ih =>
    obtain ⟨hi, hitems⟩ := List.forall_mem_cons.mp hitems
    obtain ⟨hstepI, hstep⟩ := List.forall_mem_cons.mp hstep
    rw [List.flatMap_cons, List.flatMap_cons, List.mapM_append, DayItem.mapM_items hi hstepI,
      ih hitems hstep]
    rfl

theorem fieldValues?_of_mapM {u : TimeUnit} {js : List Item} {ps : List Progression}
    (h : js.mapM (Item.progression? u) = some ps) :
    fieldValues? u js = some (u.values.filter fun n => ps.any (·.reaches n)) := by
  rw [fieldValues?, h, Option.map_some]

theorem mem_weekdaysOf (hitems : ∀ i ∈ items, i.WellFormed)
    (hstep : ∀ i ∈ items, ¬ i.StepsToSunday) {n : Nat} (hn : n < 7) :
    n + 1 ∈ weekdaysOf items ↔
      ∃ i ∈ items, i.SpansWeek ∧ n = 0 ∨ ¬ i.SpansWeek ∧ i.Includes n := by
  have hvalue : n + 1 ∈ TimeUnit.weekday.values := mem_values.mpr ⟨Nat.le_add_left 1 n, hn⟩
  rw [weekdaysOf, List.mem_filter, and_iff_right hvalue, List.any_eq_true]
  constructor
  · intro h
    obtain ⟨p, hp, hreaches⟩ := h
    obtain ⟨i, hi, hp⟩ := List.mem_flatMap.mp hp
    have hiff := DayItem.exists_reaches_iff (hitems i hi) (hstep i hi) hn
    exact ⟨i, hi, hiff.mp ⟨p, hp, hreaches⟩⟩
  · intro h
    obtain ⟨i, hi, hincludes⟩ := h
    have hiff := DayItem.exists_reaches_iff (hitems i hi) (hstep i hi) hn
    obtain ⟨p, hp, hreaches⟩ := hiff.mpr hincludes
    exact ⟨p, List.mem_flatMap.mpr ⟨i, hi, hp⟩, hreaches⟩

/-! ### Reading a list -/

theorem DayItem.mem_text {i : DayItem} {c : Char} (h : c ∈ i.text) :
    c.isDigit = true ∨ c ∈ ['-', '/', '*'] := by
  have hdigits : ∀ n, c ∈ Text.natDigits n → c.isDigit = true := fun _ =>
    Text.isDigit_of_mem_natDigits
  cases i <;> simp only [text, List.mem_append, List.mem_cons, List.not_mem_nil, or_false] at h ⊢
  case day => exact Or.inl (hdigits _ h)
  case range =>
    rcases h with h | h | h
    · exact Or.inl (hdigits _ h)
    · exact Or.inr (Or.inl h)
    · exact Or.inl (hdigits _ h)
  case stepped =>
    rcases h with (h | h | h) | h | h
    · exact Or.inl (hdigits _ h)
    · exact Or.inr (Or.inl h)
    · exact Or.inl (hdigits _ h)
    · exact Or.inr (Or.inr (Or.inl h))
    · exact Or.inl (hdigits _ h)
  case every => exact Or.inr (Or.inr (Or.inr h))
  case everyStep =>
    rcases h with h | h | h
    · exact Or.inr (Or.inr (Or.inr h))
    · exact Or.inr (Or.inr (Or.inl h))
    · exact Or.inl (hdigits _ h)

theorem map_text_ne_nil (hne : items ≠ []) : items.map DayItem.text ≠ [] := by
  simpa using hne

theorem mem_dayList (hne : items ≠ []) {c : Char} (h : c ∈ dayList items) :
    c.isDigit = true ∨ c ∈ ['-', '/', '*', ','] := by
  have hmem : c ∈ ',' :: dayList items := List.mem_cons_of_mem ',' h
  rw [dayList, Text.cons_intercalate ',' (map_text_ne_nil hne), List.flatMap_map,
    List.mem_flatMap] at hmem
  obtain ⟨i, -, hmem⟩ := hmem
  rcases List.mem_cons.mp hmem with rfl | hmem
  · exact Or.inr (by decide)
  · exact i.mem_text hmem |>.imp_right fun hmark => List.mem_append_left [','] hmark

theorem visible_dayList (hne : items ≠ []) : Text.Visible (dayList items) := by
  constructor
  · intro hnil
    have hcons := Text.cons_intercalate ',' (map_text_ne_nil hne)
    obtain ⟨i, rest, rfl⟩ := List.exists_cons_of_ne_nil hne
    have hlength := congrArg List.length hcons
    have htext : i.text ≠ [] := by
      cases i <;> simp [DayItem.text, Text.natDigits, Nat.toDigits_ne_nil]
    have hpos := List.length_pos_iff.mpr htext
    rw [show [','].intercalate ((i :: rest).map DayItem.text) = [] from hnil] at hlength
    simp only [List.length_cons, List.length_nil, List.map_cons, List.flatMap_cons,
      List.length_append] at hlength
    omega
  · intro c hc
    rcases mem_dayList hne hc with hdigit | hmark
    · exact Text.not_blank_of_isDigit hdigit
    · simp only [List.mem_cons, List.not_mem_nil, or_false] at hmark
      rcases hmark with rfl | rfl | rfl | rfl <;> decide

theorem cons_dayFieldNames (hne : items ≠ []) :
    ',' :: dayFieldNames (dayList items) = items.flatMap fun i => ',' :: dayItemNames i.text := by
  have hcomma : ∀ piece ∈ items.map DayItem.text, ',' ∉ piece := by
    intro piece hpiece hmem
    obtain ⟨i, -, rfl⟩ := List.mem_map.mp hpiece
    have hcase := i.mem_text hmem
    revert hcase
    decide
  have hsplit := Text.splitOn_intercalate (map_text_ne_nil hne) hcomma
  rw [dayFieldNames, dayList, hsplit, Text.cons_intercalate ',' (by simpa using hne), List.map_map,
    List.flatMap_map]
  rfl

theorem flatMap_dayItemNames (hitems : ∀ i ∈ items, i.WellFormed)
    (hstep : ∀ i ∈ items, ¬ i.StepsToSunday) :
    items.flatMap (fun i => ',' :: dayItemNames i.text) =
      (items.flatMap DayItem.items).flatMap fun j => ',' :: j.text := by
  rw [List.flatMap_assoc]
  exact List.flatMap_congr fun i hi => DayItem.dayItemNames_text (hitems i hi) (hstep i hi)

theorem named_flatMap_items (hitems : ∀ i ∈ items, i.WellFormed) :
    ∀ j ∈ items.flatMap DayItem.items, j.Named := by
  intro j hj
  obtain ⟨i, hi, hj⟩ := List.mem_flatMap.mp hj
  exact DayItem.named_items (hitems i hi) j hj

theorem DayItem.items_ne_nil (i : DayItem) : i.items ≠ [] := by
  cases i with
  | range first last =>
    rw [items]
    split <;> exact List.cons_ne_nil _ _
  | _ => exact List.cons_ne_nil _ _

theorem flatMap_items_ne_nil (hne : items ≠ []) : items.flatMap DayItem.items ≠ [] := by
  obtain ⟨i, items, rfl⟩ := List.exists_cons_of_ne_nil hne
  exact List.append_ne_nil_of_left_ne_nil i.items_ne_nil _

theorem takeField?_dayList (hne : items ≠ []) (hitems : ∀ i ∈ items, i.WellFormed)
    (hstep : ∀ i ∈ items, ¬ i.StepsToSunday) :
    skipBlanks (dayFieldNames (dayList items)) = dayFieldNames (dayList items) ∧
      takeField? .weekday true (dayFieldNames (dayList items)) = some (weekdaysOf items, []) := by
  have hfield := (cons_dayFieldNames hne).trans (flatMap_dayItemNames hitems hstep)
  rw [← List.append_nil (List.flatMap _ _)] at hfield
  obtain ⟨hskip, fuel, -, htake⟩ := @takeField?_items .weekday _ (flatMap_items_ne_nil hne)
    (named_flatMap_items hitems) _ [] (Or.inl rfl) hfield
  have hend : takeItems true fuel [] = ([], []) := takeItems_of_head?_ne true fuel (by simp)
  rw [hend, List.append_nil, fieldValues?_of_mapM (mapM_flatMap_items hitems hstep)] at htake
  exact ⟨hskip, htake⟩

theorem takeItems_sunday (fuel : Nat) (rest : List Char) :
    takeItems true (fuel + 1) (',' :: ("Sun".toList ++ '/' :: rest)) =
      ([.name "Sun".toList], '/' :: rest) := by
  have hletters : IsLetters "Sun".toList := isLetters_shortName 0
  have hslash : Stops Char.isAlpha ('/' :: rest) := stops_cons.mpr rfl
  have hread := takeItem?_letters hletters hslash rfl (by simp)
  have hend : takeItems true fuel ('/' :: rest) = ([], '/' :: rest) :=
    takeItems_of_head?_ne true fuel (by simp)
  rw [takeItems, hread]
  simp only [hend]

/-- The items in front of the first step that stands behind a Sunday. -/
theorem exists_field_of_stepsToSunday (hitems : ∀ i ∈ items, i.WellFormed)
    (hstep : ∃ i ∈ items, i.StepsToSunday) :
    ∃ (front : List DayItem) (first : Nat) (rest : List Char), (∀ j ∈ front, j.WellFormed) ∧
      (∀ j ∈ front, ¬ j.StepsToSunday) ∧ (1 ≤ first ∧ first ≤ 6) ∧
      ',' :: dayFieldNames (dayList items) = (front.flatMap DayItem.items ++
          [Item.span (.names (shortName first) (shortName 6))]).flatMap (fun j => ',' :: j.text) ++
            ',' :: ("Sun".toList ++ '/' :: rest) := by
  obtain ⟨i, hi, hsunday⟩ := hstep
  have hne : items ≠ [] := List.ne_nil_of_mem hi
  cases hfind : items.find? fun j => decide j.StepsToSunday with
  | none => exact absurd (decide_eq_true hsunday) (List.find?_eq_none.mp hfind i hi)
  | some k =>
    obtain ⟨hk, front, back, rfl, hfront⟩ := List.find?_eq_some_iff_append.mp hfind
    obtain ⟨hwell, hkWell, -⟩ :=
      (List.forall_mem_append.trans (and_congr_right' List.forall_mem_cons)).mp hitems
    have hnoStep : ∀ j ∈ front, ¬ j.StepsToSunday := fun j hj => by simpa using hfront j hj
    cases k with
    | stepped first last step =>
      have hwrap : last = 7 ∧ 1 ≤ first ∧ first ≤ 6 := of_decide_eq_true hk
      have hsaturday : shortName 6 = "Sat".toList := by decide
      refine ⟨front, first, Text.natDigits step ++ back.flatMap fun i =>
        ',' :: dayItemNames i.text, hwell, hnoStep, hwrap.2, ?_⟩
      rw [cons_dayFieldNames hne, List.flatMap_append, List.flatMap_cons,
        flatMap_dayItemNames hwell hnoStep, DayItem.dayItemNames_stepped hkWell.1.1 hkWell.1.2,
        if_pos hwrap]
      simp [Item.text, Span.text, hsaturday]
    | _ => exact absurd (of_decide_eq_true hk) id

/-- The step behind the Sunday of a rewritten range is left over. -/
theorem takeField?_stepsToSunday (hitems : ∀ i ∈ items, i.WellFormed)
    (hstep : ∃ i ∈ items, i.StepsToSunday) :
    skipBlanks (dayFieldNames (dayList items)) = dayFieldNames (dayList items) ∧
      ∃ weekdays rest, takeField? .weekday true (dayFieldNames (dayList items)) =
        some (weekdays, '/' :: rest) := by
  obtain ⟨front, first, rest, hwell, hnoStep, hfirst, hfield⟩ :=
    exists_field_of_stepsToSunday hitems hstep
  have hnamed : ∀ j ∈ front.flatMap DayItem.items ++
      [Item.span (.names (shortName first) (shortName 6))], j.Named := by
    refine List.forall_mem_append.mpr ⟨named_flatMap_items hwell, ?_⟩
    exact List.forall_mem_singleton.mpr
      (.span (.names (isLetters_shortName first) (isLetters_shortName 6)))
  obtain ⟨hskip, fuel, hfuel, htake⟩ := @takeField?_items .weekday _ (by simp) hnamed _ _
    (Or.inr ⟨_, rfl⟩) hfield
  obtain ⟨fuel, rfl⟩ : ∃ k, fuel = k + 1 := by
    simp only [List.length_cons] at hfuel
    exact ⟨fuel - 1, by omega⟩
  -- What is read before the step are the items of the range without its step.
  have hread : front.flatMap DayItem.items ++
      [Item.span (.names (shortName first) (shortName 6))] ++ [Item.name "Sun".toList] =
        (front ++ [DayItem.range first 7]).flatMap DayItem.items := by
    have hrange : (DayItem.range first 7).items =
        [.span (.names (shortName first) (shortName 6)), .name (shortName 0)] :=
      if_pos ⟨rfl, hfirst⟩
    rw [List.flatMap_append, List.flatMap_singleton, hrange, List.append_assoc]
    rfl
  have hwell' : ∀ j ∈ front ++ [DayItem.range first 7], j.WellFormed :=
    List.forall_mem_append.mpr ⟨hwell,
      List.forall_mem_singleton.mpr ⟨hfirst.2.trans (by decide), Nat.le_refl 7⟩⟩
  have hnoStep' : ∀ j ∈ front ++ [DayItem.range first 7], ¬ j.StepsToSunday :=
    List.forall_mem_append.mpr ⟨hnoStep, List.forall_mem_singleton.mpr id⟩
  rw [takeItems_sunday] at htake
  dsimp only at htake
  rw [hread, fieldValues?_of_mapM (mapM_flatMap_items hwell' hnoStep'), Option.map_some] at htake
  exact ⟨hskip, _, _, htake⟩

theorem splitOccurrence_dayList (hne : items ≠ []) :
    splitOccurrence (dayList items) = .ok (dayList items, none) := by
  have hhash : '#' ∉ dayList items := by
    intro hmem
    have hcase := mem_dayList hne hmem
    revert hcase
    decide
  rw [splitOccurrence, Text.cut?_of_not_mem hhash]

section Reading

variable {minute hour : List Char} (hminute : IsNumberBelow 60 minute)
  (hhour : IsNumberBelow 24 hour)

include hminute hhour

theorem read_dayList_eq (hne : items ≠ []) :
    read (String.ofList ([' '].intercalate (weekdayFields minute hour (dayList items)))) =
      match patternOf minute hour ['*'] ['*'] (dayList items) none with
      | .ok pattern =>
        .ok ⟨String.ofList ([' '].intercalate (weekdayFields minute hour (dayList items))),
          [pattern]⟩
      | .error fault =>
        .error (.invalidCron (String.ofList
          ([' '].intercalate (weekdayFields minute hour (dayList items)))) fault) := by
  have hpatterns : patternsOf minute hour ['*'] ['*'] (dayList items) =
      (patternOf minute hour ['*'] ['*'] (dayList items) none).map fun pattern => [pattern] := by
    rw [patternsOf, splitOccurrence_dayList hne]
    rfl
  rw [read_weekdayFields hminute hhour (visible_dayList hne), hpatterns]
  cases patternOf minute hour ['*'] ['*'] (dayList items) none <;> rfl

theorem read_dayList (hne : items ≠ []) (hitems : ∀ i ∈ items, i.WellFormed)
    (hstep : ∀ i ∈ items, ¬ i.StepsToSunday) :
    read (String.ofList ([' '].intercalate (weekdayFields minute hour (dayList items)))) =
      .ok ⟨String.ofList ([' '].intercalate (weekdayFields minute hour (dayList items))),
        [⟨onWeekdays (Text.digitsValue minute) (Text.digitsValue hour) (weekdaysOf items),
          none⟩]⟩ := by
  obtain ⟨hskip, htake⟩ := takeField?_dayList hne hitems hstep
  rw [read_dayList_eq hminute hhour hne, patternOf_onWeekdays hminute hhour htake hskip]

theorem read_stepsToSunday (hitems : ∀ i ∈ items, i.WellFormed)
    (hstep : ∃ i ∈ items, i.StepsToSunday) (c : Cron) :
    read (String.ofList ([' '].intercalate (weekdayFields minute hour (dayList items)))) ≠
      .ok c := by
  obtain ⟨hskip, weekdays, rest, htake⟩ := takeField?_stepsToSunday hitems hstep
  obtain ⟨i, hi, -⟩ := hstep
  have hyears : takeField? .year false ('/' :: rest) = none := rfl
  rw [read_dayList_eq hminute hhour (List.ne_nil_of_mem hi),
    patternOf_eq_error hminute hhour htake hskip (List.cons_ne_nil '/' rest) hyears]
  intro h
  cases h

end Reading

end Lists

/-! ### When a list is due -/

/-- Whether a list of weekdays is read and is due, at its time in the years of schedules, exactly on
the weekdays of its items. -/
def FollowsDays (minute hour : List Char) (items : List DayItem) : Prop :=
  let text := String.ofList ([' '].intercalate (weekdayFields minute hour (dayList items)))
  ∃ c, read text = .ok c ∧
    ∀ t : Calendar.DateTime, 1970 ≤ t.date.year → t.date.year ≤ 2100 →
      t.time.hour = Text.digitsValue hour → t.time.minute = Text.digitsValue minute →
        (c.isDue t = true ↔ ∃ i ∈ items, i.Includes t.date.weekday)

theorem exists_dateTime {n hour minute : Nat} (hn : n < 7) (hhour : hour < 24)
    (hminute : minute < 60) :
    ∃ t : Calendar.DateTime, t.date.year = 2025 ∧ t.date.weekday = n ∧ t.time.hour = hour ∧
      t.time.minute = minute := by
  -- The fourteenth of December 2025 is a Sunday.
  have hdate : ∃ d : Calendar.Date, d.year = 2025 ∧ d.weekday = n := by
    interval_cases n
    · exact ⟨⟨2025, 12, 14, by decide⟩, rfl, by decide⟩
    · exact ⟨⟨2025, 12, 15, by decide⟩, rfl, by decide⟩
    · exact ⟨⟨2025, 12, 16, by decide⟩, rfl, by decide⟩
    · exact ⟨⟨2025, 12, 17, by decide⟩, rfl, by decide⟩
    · exact ⟨⟨2025, 12, 18, by decide⟩, rfl, by decide⟩
    · exact ⟨⟨2025, 12, 19, by decide⟩, rfl, by decide⟩
    · exact ⟨⟨2025, 12, 20, by decide⟩, rfl, by decide⟩
  obtain ⟨d, hyear, hweekday⟩ := hdate
  exact ⟨⟨d, ⟨hour, minute, 0, 0, hhour, hminute, by decide, by decide⟩⟩, hyear, hweekday, rfl, rfl⟩

theorem DayItem.Includes.lt {i : DayItem} {n : Nat} (h : i.Includes n) : n < 7 := by
  cases i with
  | day d => exact h ▸ Nat.mod_lt d (by decide)
  | range first last =>
    obtain ⟨x, -, -, rfl⟩ := h
    exact Nat.mod_lt x (by decide)
  | stepped first last step =>
    obtain ⟨k, -, rfl⟩ := h
    exact Nat.mod_lt _ (by decide)
  | every => exact Nat.lt_succ_of_le h
  | everyStep step =>
    obtain ⟨k, hle, rfl⟩ := h
    exact Nat.lt_succ_of_le hle

theorem DayItem.includes_zero {i : DayItem} (h : i.SpansWeek) : i.Includes 0 := by
  cases i with
  | range first last => exact ⟨0, by rw [h.1], Nat.zero_le _, rfl⟩
  | stepped first last step => exact ⟨0, by rw [h.1, h.2]; omega, by rw [h.1]; omega⟩
  | _ => exact absurd h id

theorem isDue_onWeekdays {text : String} {minute hour : Nat} {weekdays : List Nat}
    {t : Calendar.DateTime} (hyear : 1970 ≤ t.date.year) (hyear' : t.date.year ≤ 2100)
    (hhour : t.time.hour = hour) (hminute : t.time.minute = minute) :
    Cron.isDue ⟨text, [⟨onWeekdays minute hour weekdays, none⟩]⟩ t = true ↔
      t.date.weekday + 1 ∈ weekdays := by
  rw [isDue, List.any_cons, List.any_nil, Bool.or_false, Pattern.isDue, Bool.and_eq_true,
    includes_onWeekdays]
  simp [hyear, hyear', hhour, hminute, Pattern.acceptsDate]

/-- Without such a step a list is followed exactly if the values that are read are its weekdays. -/
theorem followsDays_iff_includes {minute hour : List Char} (hminute : IsNumberBelow 60 minute)
    (hhour : IsNumberBelow 24 hour) {items : List DayItem} (hne : items ≠ [])
    (hitems : ∀ i ∈ items, i.WellFormed) (hstep : ∀ i ∈ items, ¬ i.StepsToSunday) :
    FollowsDays minute hour items ↔ ∀ n < 7,
      (∃ i ∈ items, i.SpansWeek ∧ n = 0 ∨ ¬ i.SpansWeek ∧ i.Includes n) ↔
        ∃ i ∈ items, i.Includes n := by
  have hread := read_dayList hminute hhour hne hitems hstep
  constructor
  · intro h n hn
    obtain ⟨c, hc, hdue⟩ := h
    rw [hread] at hc
    cases hc
    obtain ⟨t, hyear, rfl, hhourEq, hminuteEq⟩ := exists_dateTime hn hhour.lt hminute.lt
    have hlow : 1970 ≤ t.date.year := by omega
    have hhigh : t.date.year ≤ 2100 := by omega
    rw [← hdue t hlow hhigh hhourEq hminuteEq, ← mem_weekdaysOf hitems hstep hn,
      isDue_onWeekdays hlow hhigh hhourEq hminuteEq]
  · intro h
    refine ⟨_, hread, fun t hlow hhigh hhourEq hminuteEq => ?_⟩
    have hlt := t.date.weekday_lt
    rw [isDue_onWeekdays hlow hhigh hhourEq hminuteEq, mem_weekdaysOf hitems hstep hlt,
      h t.date.weekday hlt]

/-- A list of weekdays is read and due on exactly its weekdays when no item steps up to the Sunday
behind the week, and the weekdays after Sunday of an item for the whole week are those of other
items. -/
theorem followsDays_iff {minute hour : List Char} (hminute : IsNumberBelow 60 minute)
    (hhour : IsNumberBelow 24 hour) {items : List DayItem} (hne : items ≠ [])
    (hitems : ∀ i ∈ items, i.WellFormed) :
    FollowsDays minute hour items ↔
      (∀ i ∈ items, ¬ i.StepsToSunday) ∧
        ∀ i ∈ items, i.SpansWeek → ∀ n, i.Includes n →
          n = 0 ∨ ∃ j ∈ items, ¬ j.SpansWeek ∧ j.Includes n := by
  by_cases hstep : ∀ i ∈ items, ¬ i.StepsToSunday
  · rw [followsDays_iff_includes hminute hhour hne hitems hstep, and_iff_right hstep]
    constructor
    · intro h i hi hweek n hn
      obtain ⟨j, hj, hcase⟩ := (h n hn.lt).mpr ⟨i, hi, hn⟩
      rcases hcase with ⟨-, hzero⟩ | ⟨hnot, hincludes⟩
      · exact Or.inl hzero
      · exact Or.inr ⟨j, hj, hnot, hincludes⟩
    · intro h n hn
      constructor
      · intro hread
        obtain ⟨i, hi, hcase⟩ := hread
        rcases hcase with ⟨hweek, rfl⟩ | ⟨-, hincludes⟩
        · exact ⟨i, hi, DayItem.includes_zero hweek⟩
        · exact ⟨i, hi, hincludes⟩
      · intro hincluded
        obtain ⟨i, hi, hincludes⟩ := hincluded
        by_cases hweek : i.SpansWeek
        · rcases h i hi hweek n hincludes with hzero | ⟨j, hj, hnot, hother⟩
          · exact ⟨i, hi, Or.inl ⟨hweek, hzero⟩⟩
          · exact ⟨j, hj, Or.inr ⟨hnot, hother⟩⟩
        · exact ⟨i, hi, Or.inr ⟨hweek, hincludes⟩⟩
  · constructor
    · intro h
      obtain ⟨c, hc, -⟩ := h
      push Not at hstep
      exact absurd hc (read_stepsToSunday hminute hhour hitems hstep c)
    · intro h
      exact absurd h.1 hstep

/-- A week may span all weekdays beside an item that lists them, and a range may end on 7. -/
theorem followsDays_mixed :
    IsNumberBelow 60 "05".toList ∧ IsNumberBelow 24 "9".toList ∧
      dayList [.range 0 7, .stepped 1 6 1, .range 5 7, .everyStep 3, .day 7] =
        "0-7,1-6/1,5-7,*/3,7".toList ∧
      (∀ i ∈ [DayItem.range 0 7, .stepped 1 6 1, .range 5 7, .everyStep 3, .day 7],
        i.WellFormed) ∧
      FollowsDays "05".toList "9".toList
        [.range 0 7, .stepped 1 6 1, .range 5 7, .everyStep 3, .day 7] := by
  have hminute : IsNumberBelow 60 "05".toList :=
    ⟨by decide, List.all_eq_true.mp (by decide), by decide⟩
  have hhour : IsNumberBelow 24 "9".toList :=
    ⟨by decide, List.all_eq_true.mp (by decide), by decide⟩
  have hwell : ∀ i ∈ [DayItem.range 0 7, .stepped 1 6 1, .range 5 7, .everyStep 3, .day 7],
      i.WellFormed := by decide
  refine ⟨hminute, hhour, by decide, hwell, ?_⟩
  refine (followsDays_iff hminute hhour (List.cons_ne_nil _ _) hwell).mpr ⟨by decide, ?_⟩
  intro i hi hweek n hn
  by_cases hzero : n = 0
  · exact Or.inl hzero
  · have hlt := hn.lt
    exact Or.inr ⟨.stepped 1 6 1, by decide, by decide, n - 1, by omega, by omega⟩

/-- The week from 0 to 7 is due on Sundays alone, and a step up to 7 is not read at all. -/
theorem not_followsDays_week :
    IsNumberBelow 60 "0".toList ∧ IsNumberBelow 24 "9".toList ∧
      dayList [.range 0 7] = "0-7".toList ∧ dayList [.stepped 5 7 2] = "5-7/2".toList ∧
      (DayItem.range 0 7).WellFormed ∧ (DayItem.stepped 5 7 2).WellFormed ∧
      ¬ FollowsDays "0".toList "9".toList [.range 0 7] ∧
      ¬ FollowsDays "0".toList "9".toList [.stepped 5 7 2] := by
  have hminute : IsNumberBelow 60 "0".toList :=
    ⟨by decide, List.all_eq_true.mp (by decide), by decide⟩
  have hhour : IsNumberBelow 24 "9".toList :=
    ⟨by decide, List.all_eq_true.mp (by decide), by decide⟩
  have hweek : ∀ i ∈ [DayItem.range 0 7], i.WellFormed := by decide
  have hstepped : ∀ i ∈ [DayItem.stepped 5 7 2], i.WellFormed := by decide
  refine ⟨hminute, hhour, by decide, by decide, by decide, by decide, fun h => ?_, fun h => ?_⟩
  · have hmonday := (followsDays_iff_includes hminute hhour (List.cons_ne_nil _ _) hweek
      (by decide)).mp h 1 (by decide)
    obtain ⟨i, hi, hcase⟩ := hmonday.mpr ⟨.range 0 7, List.mem_singleton_self _, 1, by decide⟩
    rw [List.mem_singleton.mp hi] at hcase
    rcases hcase with ⟨-, hzero⟩ | ⟨hnot, -⟩
    · cases hzero
    · exact hnot ⟨rfl, rfl⟩
  · obtain ⟨c, hc, -⟩ := h
    exact read_stepsToSunday hminute hhour hstepped
      ⟨.stepped 5 7 2, List.mem_singleton_self _, by decide⟩ c hc

end Placeholder.Temporal.Cron
