import Mathlib
import Placeholder.Proofs.ScheduleFields

/-!
# Cron expressions for a weekday of the month

The expression for an occurrence of a weekday at a time of day is read again, and what is read is
due in that minute of the days that the calendar counts as that occurrence, in all years of the
schedules.
-/

namespace Placeholder

namespace Temporal

theorem weekdayNumber_lt {day : String} {weekday : Nat} (h : weekdayNumber day = .ok weekday) :
    weekday < 7 := by
  have hall : ∀ entry ∈ weekdayNames, entry.2 < 7 := by decide
  unfold weekdayNumber at h
  dsimp only at h
  split at h
  · rename_i n hlookup
    cases h
    obtain ⟨front, back, hlist, -⟩ := List.lookup_eq_some_iff.mp hlookup
    exact hall (String.ofList (Text.lower (Text.trim day.toList)), weekday) (by simp [hlist])
  · cases h

namespace Cron

/-- A time of day, its numbers with any zeros in front. -/
def clockText (hourZeros hour minuteZeros minute : Nat) : String :=
  String.ofList (List.replicate hourZeros '0' ++ Text.natDigits hour ++
    ':' :: (List.replicate minuteZeros '0' ++ Text.natDigits minute))

theorem readNat?_zeros (zeros : Nat) {n bound : Nat} (hn : n < bound) :
    Text.readNat? bound (Text.trim (List.replicate zeros '0' ++ Text.natDigits n)) = some n := by
  have hdigits := Text.isDigit_of_mem_zeros (k := zeros) fun c (hc : c ∈ Text.natDigits n) =>
    Text.isDigit_of_mem_natDigits hc
  have hne : List.replicate zeros '0' ++ Text.natDigits n ≠ [] :=
    List.append_ne_nil_of_right_ne_nil _ Nat.toDigits_ne_nil
  have htrim : Text.Trimmed (List.replicate zeros '0' ++ Text.natDigits n) :=
    (Text.visible_of_digits hne hdigits).trimmed
  rw [htrim, Text.readNat?_of_digits hne hdigits, Text.digitsValue_zeros,
    Text.digitsValue_natDigits, if_pos hn]

/-- The five fields for an occurrence of a weekday. -/
def monthlyFields (minute hour weekday : Nat) (n : Int64) : List (List Char) :=
  [Text.natDigits minute, Text.natDigits hour, ['*'], ['*'],
    Text.natDigits weekday ++ '#' :: Text.intDigits n.toInt]

theorem ofNthWeekday_eq {day : String} {weekday : Nat} (hday : weekdayNumber day = .ok weekday)
    {n : Int64} (hn : 1 ≤ n.toInt ∧ n.toInt ≤ 5) (hourZeros minuteZeros : Nat) {hour minute : Nat}
    (hhour : hour < 24) (hminute : minute < 60) :
    ofNthWeekday day n (clockText hourZeros hour minuteZeros minute) =
      .ok (String.ofList ([' '].intercalate (monthlyFields minute hour weekday n))) := by
  have hcolon : ':' ∉ List.replicate hourZeros '0' ++ Text.natDigits hour := by
    intro hmem
    have hdigit := Text.isDigit_of_mem_zeros (k := hourZeros)
      (fun c (hc : c ∈ Text.natDigits hour) => Text.isDigit_of_mem_natDigits hc) _ hmem
    cases hdigit
  have hcut : Text.cut? [':'] (clockText hourZeros hour minuteZeros minute).toList =
      some (List.replicate hourZeros '0' ++ Text.natDigits hour,
        List.replicate minuteZeros '0' ++ Text.natDigits minute) := by
    rw [clockText, String.toList_ofList]
    exact Text.cut?_char hcolon _
  have htext : Text.natText minute ++ " " ++ Text.natText hour ++ " * * " ++ Text.natText weekday ++
      "#" ++ Text.intText n.toInt =
        String.ofList ([' '].intercalate (monthlyFields minute hour weekday n)) := by
    rw [← String.toList_inj]
    simp [Text.natText, Text.intText, monthlyFields, List.intercalate]
  have hread := readNat?_zeros hourZeros (hhour.trans (show 24 < UInt32.size by decide))
  have hread' := readNat?_zeros minuteZeros (hminute.trans (show 60 < UInt32.size by decide))
  rw [← htext, ofNthWeekday, hday]
  simp only [hcut, Option.getD_some, hread, hread']
  exact if_pos hn

/-! ### Reading the fields -/

theorem splitOccurrence_hash {field : List Char} (hfield : '#' ∉ field) {n : Int64}
    (hn : 1 ≤ n.toInt ∧ n.toInt ≤ 5) :
    splitOccurrence (field ++ '#' :: Text.intDigits n.toInt) =
      .ok (field, some n.toInt.toNat) := by
  have hcut := Text.cut?_char hfield (Text.intDigits n.toInt)
  have hdigits : Text.intDigits n.toInt = Text.natDigits n.toInt.natAbs :=
    if_neg (by omega)
  have habs : (n.toInt.natAbs : Int) = n.toInt := by omega
  have hread : Text.readInt64? (Text.intDigits n.toInt) = some n := by
    have hvalue : Text.readInt64? (Text.natDigits n.toInt.natAbs) =
        exactInt64 (Text.digitsValue (Text.natDigits n.toInt.natAbs)) :=
      Text.readInt64?_of_digits Nat.toDigits_ne_nil fun _ => Text.isDigit_of_mem_natDigits
    rw [hdigits, hvalue, Text.digitsValue_natDigits, habs]
    exact (exactInt64_eq_some_iff _ n).mpr rfl
  rw [splitOccurrence, hcut]
  simp only [hread]
  exact if_pos hn

theorem patternsOf_monthlyFields {minute hour weekday : Nat} (hminute : minute < 60)
    (hhour : hour < 24) (hweekday : weekday < 7) {n : Int64} (hn : 1 ≤ n.toInt ∧ n.toInt ≤ 5) :
    patternsOf (Text.natDigits minute) (Text.natDigits hour) ['*'] ['*']
      (Text.natDigits weekday ++ '#' :: Text.intDigits n.toInt) =
        .ok [⟨onWeekdays minute hour [weekday + 1], some n.toInt.toNat⟩] := by
  have hhash : '#' ∉ Text.natDigits weekday := fun hc => by
    have hdigit := Text.isDigit_of_mem_natDigits hc
    cases hdigit
  -- Each of the seven numbers is written as a name of three letters, which the field reads back.
  have hnames : ∀ w < 7, takeField? .weekday true (dayFieldNames (Text.natDigits w)) =
      some ([w + 1], []) := by decide
  have hskip : ∀ w < 7, skipBlanks (dayFieldNames (Text.natDigits w)) =
      dayFieldNames (Text.natDigits w) := by decide
  have hpattern := patternOf_onWeekdays (isNumberBelow_natDigits hminute)
    (isNumberBelow_natDigits hhour) (hnames weekday hweekday) (hskip weekday hweekday)
    (some n.toInt.toNat)
  rw [Text.digitsValue_natDigits, Text.digitsValue_natDigits] at hpattern
  rw [patternsOf, splitOccurrence_hash hhash hn]
  change (do
    let pattern ← patternOf (Text.natDigits minute) (Text.natDigits hour) ['*'] ['*']
      (Text.natDigits weekday) (some n.toInt.toNat)
    Except.ok [pattern]) = _
  rw [hpattern]
  rfl

theorem visible_occurrenceField (weekday : Nat) {n : Int64} (hn : 1 ≤ n.toInt ∧ n.toInt ≤ 5) :
    Text.Visible (Text.natDigits weekday ++ '#' :: Text.intDigits n.toInt) := by
  have hdigits : Text.intDigits n.toInt = Text.natDigits n.toInt.natAbs :=
    if_neg (by omega)
  refine ⟨List.append_ne_nil_of_right_ne_nil _ (List.cons_ne_nil _ _), fun c hc => ?_⟩
  rw [hdigits, List.mem_append, List.mem_cons] at hc
  rcases hc with hc | rfl | hc
  · exact (Text.visible_natDigits weekday).2 c hc
  · decide
  · exact (Text.visible_natDigits _).2 c hc

theorem read_monthlyFields {minute hour weekday : Nat} (hminute : minute < 60)
    (hhour : hour < 24) (hweekday : weekday < 7) {n : Int64} (hn : 1 ≤ n.toInt ∧ n.toInt ≤ 5) :
    read (String.ofList ([' '].intercalate (monthlyFields minute hour weekday n))) =
      .ok ⟨String.ofList ([' '].intercalate (monthlyFields minute hour weekday n)),
        [⟨onWeekdays minute hour [weekday + 1], some n.toInt.toNat⟩]⟩ := by
  have hread := read_weekdayFields (isNumberBelow_natDigits hminute)
    (isNumberBelow_natDigits hhour) (visible_occurrenceField weekday hn)
  rw [patternsOf_monthlyFields hminute hhour hweekday hn] at hread
  exact hread

/-! ### When it is due -/

theorem isNthWeekday_eq {day : String} {weekday : Nat} (hday : weekdayNumber day = .ok weekday)
    {n : Int64} (hn : 1 ≤ n.toInt ∧ n.toInt ≤ 5) (t : Calendar.DateTime) :
    isNthWeekday day n t =
      .ok (t.date.weekday == weekday && occurrenceOf t.date == n.toInt.toNat) := by
  have hlast : n ≠ -1 := by
    rintro rfl
    exact absurd hn (by decide)
  have hmatches : matchesOccurrence n t.date = (occurrenceOf t.date == n.toInt.toNat) := by
    rw [matchesOccurrence, if_neg hlast, Bool.eq_iff_iff, beq_iff_eq, beq_iff_eq]
    omega
  rw [isNthWeekday, hday, checkOccurrence, if_pos (Or.inr hn), hmatches]
  rfl

/-- The expression for the `n`-th of a weekday at a time of day is read, and it is due exactly in
that minute of the `n`-th of that weekday in a month, in the years that schedules have. -/
theorem isDue_ofNthWeekday {day : String} {weekday : Nat}
    (hday : weekdayNumber day = .ok weekday) {n : Int64} (hn : 1 ≤ n.toInt ∧ n.toInt ≤ 5)
    {hour minute : Nat} (hhour : hour < 24) (hminute : minute < 60)
    (hourZeros minuteZeros : Nat) :
    ∃ text c, ofNthWeekday day n (clockText hourZeros hour minuteZeros minute) = .ok text ∧
      read text = .ok c ∧
        ∀ t, c.isDue t = true ↔ (1970 ≤ t.date.year ∧ t.date.year ≤ 2100) ∧
          isNthWeekday day n t = .ok true ∧ t.time.hour = hour ∧ t.time.minute = minute := by
  have hweekday := weekdayNumber_lt hday
  refine ⟨_, _, ofNthWeekday_eq hday hn hourZeros minuteZeros hhour hminute,
    read_monthlyFields hminute hhour hweekday hn, fun t => ?_⟩
  rw [isDue, List.any_cons, List.any_nil, Bool.or_false, Pattern.isDue, Bool.and_eq_true,
    includes_onWeekdays, isNthWeekday_eq hday hn, List.mem_singleton, Nat.add_right_cancel_iff,
    Except.ok.injEq, Bool.and_eq_true, beq_iff_eq]
  change _ ∧ (occurrenceOf t.date == n.toInt.toNat) = true ↔ _
  tauto

theorem isDue_fifthSaturday :
    weekdayNumber " saTURday " = .ok 6 ∧ (1 ≤ (5 : Int64).toInt ∧ (5 : Int64).toInt ≤ 5) ∧
      8 < 24 ∧ 5 < 60 ∧
      ∃ text c, ofNthWeekday " saTURday " 5 "08:05" = .ok text ∧ read text = .ok c ∧
        ∀ t, c.isDue t = true ↔ (1970 ≤ t.date.year ∧ t.date.year ≤ 2100) ∧
          isNthWeekday " saTURday " 5 t = .ok true ∧ t.time.hour = 8 ∧ t.time.minute = 5 := by
  have hday : weekdayNumber " saTURday " = .ok 6 := by rfl
  have hn : 1 ≤ (5 : Int64).toInt ∧ (5 : Int64).toInt ≤ 5 := by decide
  have hclock : clockText 1 8 1 5 = "08:05" := by decide
  have hdue := isDue_ofNthWeekday hday hn (show 8 < 24 by decide) (show 5 < 60 by decide) 1 1
  rw [hclock] at hdue
  exact ⟨hday, hn, by decide, by decide, hdue⟩

end Cron

end Temporal

end Placeholder
