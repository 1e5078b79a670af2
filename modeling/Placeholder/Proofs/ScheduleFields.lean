import Mathlib
import Placeholder.Proofs.ReadSchedule
import Placeholder.Proofs.WrittenDeclaration
import Placeholder.Proofs.WrittenNumbers

/-!
# Fields of a schedule as they are written

A number is read as the field with that value alone and a star as the field with all values, where
nothing behind them carries on the item. So five fields of which minute and hour are numbers and
day and month are stars are read as the schedule of one minute on the days of the last field.
-/

namespace Placeholder.Text

theorem words_append {w : List Char} (hw : Visible w) (rest : List Char) :
    words (w ++ ' ' :: rest) = w :: words rest := by
  rw [words, splitBy_append_cons (by decide), splitBy_of_forall hw.2, List.singleton_append,
    List.filter_cons_of_pos (by simpa using hw.1)]
  rfl

theorem words_visible {w : List Char} (hw : Visible w) : words w = [w] := by
  rw [words, splitBy_of_forall hw.2, List.filter_cons_of_pos (by simpa using hw.1)]
  rfl

theorem visible_natDigits (n : Nat) : Visible (natDigits n) :=
  visible_of_digits Nat.toDigits_ne_nil fun _ => isDigit_of_mem_natDigits

end Placeholder.Text

namespace Placeholder.Temporal.Cron

open Clause (Stops takeWhile_append_of_stops stops_cons)

/-- A number below a bound, with any zeros in front. -/
structure IsNumberBelow (bound : Nat) (cs : List Char) : Prop where
  ne_nil : cs ≠ []
  isDigit : ∀ c ∈ cs, c.isDigit = true
  lt : Text.digitsValue cs < bound

theorem IsNumberBelow.visible {bound : Nat} {cs : List Char} (h : IsNumberBelow bound cs) :
    Text.Visible cs :=
  Text.visible_of_digits h.ne_nil h.isDigit

theorem isNumberBelow_natDigits {n bound : Nat} (h : n < bound) :
    IsNumberBelow bound (Text.natDigits n) := by
  refine ⟨Nat.toDigits_ne_nil, fun _ => Text.isDigit_of_mem_natDigits, ?_⟩
  rwa [Text.digitsValue_natDigits]

/-! ### One item -/

theorem skipBlanks_cons_of_ne {c : Char} (hspace : c ≠ ' ') (htab : c ≠ '\t') (cs : List Char) :
    skipBlanks (c :: cs) = c :: cs := by
  simp [skipBlanks, hspace, htab]

theorem skipBlanks_digits {digits : List Char} (hne : digits ≠ [])
    (hdigits : ∀ c ∈ digits, c.isDigit = true) (rest : List Char) :
    skipBlanks (digits ++ rest) = digits ++ rest := by
  obtain ⟨c, digits, rfl⟩ := List.exists_cons_of_ne_nil hne
  have hc := hdigits c List.mem_cons_self
  refine skipBlanks_cons_of_ne ?_ ?_ (digits ++ rest)
  · rintro rfl
    cases hc
  · rintro rfl
    cases hc

theorem skipBlanks_skipBlanks (cs : List Char) : skipBlanks (skipBlanks cs) = skipBlanks cs :=
  List.dropWhile_idempotent _ cs

theorem takeNumber?_digits {digits rest : List Char} (hne : digits ≠ [])
    (hdigits : ∀ c ∈ digits, c.isDigit = true) (hsize : Text.digitsValue digits < UInt32.size)
    (hrest : Stops Char.isDigit rest) :
    takeNumber? (digits ++ rest) = some (Text.digitsValue digits, skipBlanks rest) := by
  obtain ⟨htake, hdrop⟩ := takeWhile_append_of_stops hdigits hrest
  rw [takeNumber?, skipBlanks_digits hne hdigits, htake, hdrop, List.isEmpty_eq_false_iff.mpr hne]
  simp only [Bool.false_eq_true, if_false, if_pos hsize]

theorem head?_ne_of_not_continuesItem {cs : List Char} (h : continuesItem cs = false) {c : Char}
    (hc : [',', '-', '/'].contains c = true) : cs.head? ≠ some c := by
  intro hhead
  rw [continuesItem, hhead, Option.any_some, hc] at h
  cases h

theorem takePair?_eq_none {α : Type} {take? : List Char → Option (α × List Char)}
    {cs rest : List Char} {a : α} (h : take? cs = some (a, rest))
    (hrest : rest.head? ≠ some '-') : takePair? take? cs = none := by
  unfold takePair?
  rw [h]
  split
  · rename_i heq
    cases heq
    exact absurd rfl hrest
  · rfl

theorem takeItem?_of_span {open_ : Bool} {cs rest : List Char} {s : Span}
    (h : takeSpan? open_ cs = some (s, rest)) (hrest : rest.head? ≠ some '/') :
    takeItem? open_ cs = some (.span s, rest) := by
  unfold takeItem?
  rw [h]
  split
  · rename_i heq
    cases heq
    exact absurd rfl hrest
  · rename_i heq
    cases heq
    rfl
  · rename_i heq
    cases heq

theorem takeItems_of_not_continuesItem (open_ : Bool) (fuel : Nat) {cs : List Char}
    (h : continuesItem cs = false) : takeItems open_ fuel cs = ([], cs) := by
  unfold takeItems
  split
  · cases h
  · rfl

theorem takeSpan?_digits (open_ : Bool) {digits rest : List Char} (hne : digits ≠ [])
    (hdigits : ∀ c ∈ digits, c.isDigit = true) (hsize : Text.digitsValue digits < UInt32.size)
    (hstop : Stops Char.isDigit rest) (hrest : continuesItem (skipBlanks rest) = false) :
    takeSpan? open_ (digits ++ rest) =
      some (.point (Text.digitsValue digits), skipBlanks rest) := by
  have hnumber := takeNumber?_digits hne hdigits hsize hstop
  have hbounds : takeBounds? (digits ++ rest) =
      some (.point (Text.digitsValue digits), skipBlanks rest) := by
    rw [takeBounds?, takePair?_eq_none hnumber (head?_ne_of_not_continuesItem hrest rfl), hnumber]
  obtain ⟨c, digits, rfl⟩ := List.exists_cons_of_ne_nil hne
  have hc := hdigits c List.mem_cons_self
  rw [List.cons_append] at hbounds ⊢
  unfold takeSpan?
  split
  · rename_i heq
    rw [(List.cons.inj heq).1] at hc
    cases hc
  · rename_i heq
    rw [(List.cons.inj heq).1] at hc
    cases hc
  · exact hbounds

/-! ### One field -/

theorem takeField?_of_item {u : TimeUnit} {open_ : Bool} {cs rest : List Char} {item : Item}
    (h : takeItem? open_ (skipBlanks cs) = some (item, rest)) (hrest : continuesItem rest = false) :
    takeField? u open_ cs =
      (fieldValues? u [item]).map fun values => (values, skipBlanks rest) := by
  rw [takeField?, h]
  simp only [Option.bind_eq_bind, Option.bind_some, takeItems_of_not_continuesItem open_ _ hrest]
  cases fieldValues? u [item] <;> rfl

theorem fieldValues?_span {u : TimeUnit} {s : Span} {first last : Nat}
    (h : s.ends? u = some (first, last)) :
    fieldValues? u [.span s] = some (u.values.filter fun n => first ≤ n && n ≤ last) := by
  rw [fieldValues?, List.mapM_cons, Item.progression?, h]
  simp [Progression.reaches, Nat.mod_one]

theorem has_iff {u : TimeUnit} {n : Nat} : u.has n = true ↔ u.least ≤ n ∧ n ≤ u.greatest := by
  rw [TimeUnit.has, Bool.and_eq_true, decide_eq_true_eq, decide_eq_true_eq]

theorem mem_values {u : TimeUnit} {n : Nat} : n ∈ u.values ↔ u.least ≤ n ∧ n ≤ u.greatest := by
  rw [TimeUnit.values, List.mem_range'_1]
  omega

theorem fieldValues?_all (u : TimeUnit) : fieldValues? u [.span .all] = some u.values := by
  rw [fieldValues?_span (s := .all) rfl, List.filter_eq_self.mpr]
  intro n hn
  simpa using mem_values.mp hn

theorem fieldValues?_point {u : TimeUnit} {n : Nat} (h : u.has n = true) :
    fieldValues? u [.span (.point n)] = some [n] := by
  have hends : (Span.point n).ends? u = some (n, n) := by
    rw [Span.ends?, properRange?, h]
    simp
  have hmem : n ∈ u.values := mem_values.mpr (has_iff.mp h)
  have hnodup : u.values.Nodup := List.nodup_range'
  have hsame : (fun k => decide (n ≤ k) && decide (k ≤ n)) = (· == n) := by
    funext k
    rw [Bool.eq_iff_iff, Bool.and_eq_true, decide_eq_true_eq, decide_eq_true_eq, beq_iff_eq]
    omega
  rw [fieldValues?_span hends, hsame, List.filter_beq, List.count_eq_one_of_mem hnodup hmem]
  rfl

theorem takeField?_star (u : TimeUnit) (open_ : Bool) {rest : List Char}
    (hrest : continuesItem rest = false) :
    takeField? u open_ ('*' :: rest) = some (u.values, skipBlanks rest) := by
  have hitem : takeItem? open_ (skipBlanks ('*' :: rest)) = some (.span .all, rest) :=
    takeItem?_of_span rfl (head?_ne_of_not_continuesItem hrest rfl)
  rw [takeField?_of_item hitem hrest, fieldValues?_all, Option.map_some]

theorem takeField?_number {u : TimeUnit} (open_ : Bool) {digits : List Char}
    (hdigits : IsNumberBelow (u.greatest + 1) digits) (hleast : u.least ≤ Text.digitsValue digits)
    (hsize : u.greatest < UInt32.size) {rest : List Char} (hstop : Stops Char.isDigit rest)
    (hrest : continuesItem (skipBlanks rest) = false) :
    takeField? u open_ (digits ++ rest) = some ([Text.digitsValue digits], skipBlanks rest) := by
  have hle := Nat.le_of_lt_succ hdigits.lt
  have hitem : takeItem? open_ (skipBlanks (digits ++ rest)) =
      some (.span (.point (Text.digitsValue digits)), skipBlanks rest) := by
    rw [skipBlanks_digits hdigits.ne_nil hdigits.isDigit]
    refine takeItem?_of_span ?_ (head?_ne_of_not_continuesItem hrest rfl)
    exact takeSpan?_digits open_ hdigits.ne_nil hdigits.isDigit (hle.trans_lt hsize) hstop hrest
  rw [takeField?_of_item hitem hrest, fieldValues?_point (has_iff.mpr ⟨hleast, hle⟩),
    Option.map_some, skipBlanks_skipBlanks]

/-! ### One minute of the days of a week -/

/-- The schedule of one minute on some weekdays, counted from 1 for Sunday, of every month. -/
def onWeekdays (minute hour : Nat) (weekdays : List Nat) : Schedule :=
  ⟨[0], [minute], [hour], TimeUnit.day.values, TimeUnit.month.values, weekdays,
    TimeUnit.year.values⟩

theorem takeField?_number_space {u : TimeUnit} (open_ : Bool) {digits : List Char}
    (hdigits : IsNumberBelow (u.greatest + 1) digits) (hleast : u.least = 0)
    (hsize : u.greatest < UInt32.size) {rest : List Char} (hskip : skipBlanks rest = rest)
    (hrest : continuesItem rest = false) :
    takeField? u open_ (digits ++ ' ' :: rest) = some ([Text.digitsValue digits], rest) := by
  have hspace : skipBlanks (' ' :: rest) = rest := hskip
  rw [takeField?_number open_ hdigits (by omega) hsize (stops_cons.mpr rfl) (by rwa [hspace]),
    hspace]

theorem continuesItem_digits {digits : List Char} (hne : digits ≠ [])
    (hdigits : ∀ c ∈ digits, c.isDigit = true) (rest : List Char) :
    continuesItem (digits ++ rest) = false := by
  obtain ⟨c, digits, rfl⟩ := List.exists_cons_of_ne_nil hne
  have hc := hdigits c List.mem_cons_self
  have hmarks : c ≠ ',' ∧ c ≠ '-' ∧ c ≠ '/' := by
    refine ⟨?_, ?_, ?_⟩ <;> rintro rfl <;> cases hc
  simp [continuesItem, hmarks]

theorem read?_fields (minute hour field : List Char) :
    Schedule.read? ([' '].intercalate [['0'], minute, hour, ['*'], ['*'], field]) =
      Schedule.ofFields? ('0' :: ' ' :: (minute ++ ' ' :: (hour ++
        ' ' :: '*' :: ' ' :: '*' :: ' ' :: field))) := by
  simp [List.intercalate, Schedule.read?]

section Weekdays

variable {minute hour : List Char} (hminute : IsNumberBelow 60 minute)
  (hhour : IsNumberBelow 24 hour)

include hminute hhour

/-- Behind the weekdays nothing is left, or the years follow. -/
theorem ofFields?_weekdays {field rest : List Char} {weekdays : List Nat}
    (hfield : takeField? .weekday true field = some (weekdays, rest))
    (hskip : skipBlanks field = field) :
    Schedule.ofFields? ('0' :: ' ' :: (minute ++ ' ' :: (hour ++
      ' ' :: '*' :: ' ' :: '*' :: ' ' :: field))) =
        if rest.isEmpty then
          some (onWeekdays (Text.digitsValue minute) (Text.digitsValue hour) weekdays)
        else (takeField? .year false rest).bind fun (years, rest) =>
          if rest.isEmpty then
            some { onWeekdays (Text.digitsValue minute) (Text.digitsValue hour) weekdays with
              years := years }
          else none := by
  have hzero : IsNumberBelow 60 ['0'] := ⟨by decide, List.all_eq_true.mp (by decide), by decide⟩
  have hseconds := takeField?_number_space (u := .second) false hzero rfl (by decide)
    (skipBlanks_digits hminute.ne_nil hminute.isDigit (' ' :: (hour ++
      ' ' :: '*' :: ' ' :: '*' :: ' ' :: field)))
    (continuesItem_digits hminute.ne_nil hminute.isDigit _)
  rw [List.singleton_append] at hseconds
  have hminutes := takeField?_number_space (u := .minute) false hminute rfl (by decide)
    (skipBlanks_digits hhour.ne_nil hhour.isDigit (' ' :: '*' :: ' ' :: '*' :: ' ' :: field))
    (continuesItem_digits hhour.ne_nil hhour.isDigit _)
  have hhours := takeField?_number_space (u := .hour) false hhour rfl (by decide)
    (show skipBlanks ('*' :: ' ' :: '*' :: ' ' :: field) = _ from rfl) rfl
  have hlast : skipBlanks (' ' :: field) = field := hskip
  have hdays : takeField? .day true ('*' :: ' ' :: '*' :: ' ' :: field) =
      some (TimeUnit.day.values, '*' :: ' ' :: field) := takeField?_star .day true rfl
  have hmonths : takeField? .month false ('*' :: ' ' :: field) =
      some (TimeUnit.month.values, field) := by
    rw [takeField?_star .month false rfl, hlast]
  simp only [Schedule.ofFields?, hseconds, hminutes, hhours, hdays, hmonths, hfield,
    Option.bind_eq_bind, Option.bind_some]
  rfl

theorem patternOf_onWeekdays {field : List Char} {weekdays : List Nat}
    (hfield : takeField? .weekday true (dayFieldNames field) = some (weekdays, []))
    (hskip : skipBlanks (dayFieldNames field) = dayFieldNames field) (occurrence : Option Nat) :
    patternOf minute hour ['*'] ['*'] field occurrence =
      .ok ⟨onWeekdays (Text.digitsValue minute) (Text.digitsValue hour) weekdays, occurrence⟩ := by
  rw [patternOf, read?_fields, ofFields?_weekdays hminute hhour hfield hskip]
  rfl

theorem patternOf_eq_error {field rest : List Char} {weekdays : List Nat}
    (hfield : takeField? .weekday true (dayFieldNames field) = some (weekdays, rest))
    (hskip : skipBlanks (dayFieldNames field) = dayFieldNames field) (hne : rest ≠ [])
    (hyears : takeField? .year false rest = none) (occurrence : Option Nat) :
    patternOf minute hour ['*'] ['*'] field occurrence = .error .schedule := by
  rw [patternOf, read?_fields, ofFields?_weekdays hminute hhour hfield hskip, hyears,
    List.isEmpty_eq_false_iff.mpr hne]
  rfl

end Weekdays

/-! ### Five fields -/

/-- The fields of a cron expression with stars for day and month. -/
def weekdayFields (minute hour weekday : List Char) : List (List Char) :=
  [minute, hour, ['*'], ['*'], weekday]

theorem intercalate_weekdayFields (minute hour weekday : List Char) :
    [' '].intercalate (weekdayFields minute hour weekday) =
      minute ++ ' ' :: (hour ++ ' ' :: (['*'] ++ ' ' :: (['*'] ++ ' ' :: weekday))) := by
  simp [weekdayFields, List.intercalate]

section Reading

variable {minute hour weekday : List Char}

theorem trimmed_weekdayFields (hminute : IsNumberBelow 60 minute) (hour : List Char)
    (hweekday : Text.Visible weekday) :
    Text.Trimmed ([' '].intercalate (weekdayFields minute hour weekday)) := by
  have hends := hweekday.endsVisible.append_left
    (minute ++ ' ' :: (hour ++ ' ' :: '*' :: ' ' :: '*' :: [' ']))
  rw [intercalate_weekdayFields]
  obtain ⟨c, digits, rfl⟩ := List.exists_cons_of_ne_nil hminute.ne_nil
  refine Text.EndsVisible.trimmed_cons ?_ (hminute.visible.2 c List.mem_cons_self)
  simpa using hends

theorem readPatterns_weekdayFields (hminute : IsNumberBelow 60 minute)
    (hhour : IsNumberBelow 24 hour) (hweekday : Text.Visible weekday) :
    readPatterns ([' '].intercalate (weekdayFields minute hour weekday)) =
      patternsOf minute hour ['*'] ['*'] weekday := by
  have hstar : Text.Visible ['*'] := ⟨List.cons_ne_nil _ _, fun c hc => by
    rw [List.mem_singleton.mp hc]
    rfl⟩
  have hwords : Text.words ([' '].intercalate (weekdayFields minute hour weekday)) =
      weekdayFields minute hour weekday := by
    rw [intercalate_weekdayFields, Text.words_append hminute.visible,
      Text.words_append hhour.visible, Text.words_append hstar, Text.words_append hstar,
      Text.words_visible hweekday]
    rfl
  unfold readPatterns
  split
  · rename_i heq
    obtain ⟨c, digits, rfl⟩ := List.exists_cons_of_ne_nil hminute.ne_nil
    rw [intercalate_weekdayFields] at heq
    have hdigit := hminute.isDigit c List.mem_cons_self
    rw [(List.cons.inj heq).1] at hdigit
    cases hdigit
  · rw [hwords]
    rfl

theorem read_weekdayFields (hminute : IsNumberBelow 60 minute)
    (hhour : IsNumberBelow 24 hour) (hweekday : Text.Visible weekday) :
    read (String.ofList ([' '].intercalate (weekdayFields minute hour weekday))) =
      match patternsOf minute hour ['*'] ['*'] weekday with
      | .ok patterns =>
        .ok ⟨String.ofList ([' '].intercalate (weekdayFields minute hour weekday)), patterns⟩
      | .error fault =>
        .error (.invalidCron (String.ofList ([' '].intercalate (weekdayFields minute hour weekday)))
          fault) := by
  have htrim := trimmed_weekdayFields hminute hour hweekday
  cases hpatterns : patternsOf minute hour ['*'] ['*'] weekday with
  | ok patterns =>
    rw [read, String.toList_ofList, htrim, readPatterns_weekdayFields hminute hhour hweekday,
      hpatterns]
  | error fault =>
    rw [read, String.toList_ofList, htrim, readPatterns_weekdayFields hminute hhour hweekday,
      hpatterns]

end Reading

/-! ### When a minute is included -/

theorem monthLength_le (year : Int) (month : Nat) : Calendar.monthLength year month ≤ 31 := by
  have hall : ∀ leap, ∀ n ∈ Calendar.monthLengths leap, n ≤ 31 := by decide
  rw [Calendar.monthLength]
  split
  · exact Nat.zero_le 31
  · rw [List.getD_eq_getElem?_getD]
    cases h : (Calendar.monthLengths (Calendar.isLeapYear year))[month - 1]? with
    | none => exact Nat.zero_le 31
    | some n => exact hall _ n (List.mem_of_getElem? h)

/-- Stars for day and month admit every date. -/
theorem mem_values_of_date (d : Calendar.Date) :
    d.month ∈ TimeUnit.month.values ∧ d.day ∈ TimeUnit.day.values := by
  obtain ⟨-, -, hmonth, hmonth', hday, hday'⟩ := d.exists_date
  exact ⟨mem_values.mpr ⟨hmonth, hmonth'⟩, mem_values.mpr ⟨hday, hday'.trans (monthLength_le _ _)⟩⟩

theorem includes_onWeekdays {minute hour : Nat} {weekdays : List Nat} {t : Calendar.DateTime} :
    (onWeekdays minute hour weekdays).includes t.toMinute = true ↔
      (1970 ≤ t.date.year ∧ t.date.year ≤ 2100) ∧ t.date.weekday + 1 ∈ weekdays ∧
        t.time.hour = hour ∧ t.time.minute = minute := by
  obtain ⟨hmonth, hday⟩ := mem_values_of_date t.date
  have hyear : (t.date.year.toNat : Int) = t.date.year ∧
      t.date.year.toNat ∈ TimeUnit.year.values ↔ 1970 ≤ t.date.year ∧ t.date.year ≤ 2100 := by
    rw [mem_values]
    change _ ∧ 1970 ≤ t.date.year.toNat ∧ t.date.year.toNat ≤ 2100 ↔ _
    omega
  rw [Schedule.includes_iff]
  simp only [onWeekdays, Calendar.DateTime.toMinute, Calendar.Time.toMinute, Schedule.hasWeekday,
    Schedule.includesTime, hmonth, hday, true_and, List.contains_iff_mem, Bool.and_eq_true,
    List.mem_singleton, and_true, ← and_assoc, hyear]

end Placeholder.Temporal.Cron
