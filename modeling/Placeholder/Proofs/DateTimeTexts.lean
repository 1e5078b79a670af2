import Mathlib
import Placeholder.Clause.Reference
import Placeholder.Formatter.Registry
import Placeholder.Proofs.WrittenNumbers

/-!
# The texts of a date-time

A date-time has one text in templates and in statements, with at least four digits for its year and
a second of 60 for a leap second. The formatter writes the year with no zeros in front and a leap
second as the second before it, so that its text is the same exactly for years of four digits or
more, without a plus sign, and outside leap seconds.
-/

namespace Placeholder

namespace Calendar

theorem yearDigits_eq_intDigits_iff (year : Int) :
    yearDigits year = Text.intDigits year ↔ 1000 ≤ year ∧ year ≤ 9999 ∨ year ≤ -1000 := by
  have hfour : Text.padded 4 year.natAbs = Text.natDigits year.natAbs ↔
      10 ^ (4 - 1) ≤ year.natAbs := Text.padded_eq_natDigits_iff (by decide)
  rw [yearDigits, Text.intDigits]
  split_ifs with hrange hneg hneg
  · omega
  · rw [hfour]
    omega
  · rw [List.cons.injEq, and_iff_right rfl, hfour]
    omega
  · have hsign : ¬ '+' :: Text.padded 4 year.natAbs = Text.natDigits year.natAbs := by
      intro heq
      have hdigit : '+'.isDigit = true :=
        Text.isDigit_of_mem_natDigits (heq ▸ List.mem_cons_self)
      cases hdigit
    rw [iff_false_left hsign]
    omega

namespace DateTime

/-- The date and the time as the formatter writes them. -/
theorem format_dateTimePattern (t : DateTime) :
    t.format dateTimePattern =
      Text.intDigits t.date.year ++ '-' :: Text.padded 2 t.date.month ++
        '-' :: Text.padded 2 t.date.day ++ ' ' :: Text.padded 2 t.time.hour ++
          ':' :: Text.padded 2 t.time.minute ++ ':' :: Text.padded 2 t.time.second := by
  have hpattern : dateTimePattern = ['Y', '-', 'm', '-', 'd', ' ', 'H', ':', 'i', ':', 's'] := by
    decide
  have hfilled : t.format dateTimePattern =
      Text.intDigits t.date.year ++ (['-'] ++ (Text.padded 2 t.date.month ++ (['-'] ++
        (Text.padded 2 t.date.day ++ ([' '] ++ (Text.padded 2 t.time.hour ++ ([':'] ++
          (Text.padded 2 t.time.minute ++ ([':'] ++
            (Text.padded 2 t.time.second ++ [])))))))))) := by
    rw [hpattern]
    rfl
  rw [hfilled]
  simp only [List.append_nil, List.nil_append, List.append_assoc, List.cons_append]

theorem clockSecond_le (t : DateTime) : t.clockSecond ≤ 60 := by
  obtain ⟨-, -, hsecond, hnanosecond⟩ := t.time.exists_time
  rw [clockSecond]
  omega

theorem clockSecond_eq_iff (t : DateTime) :
    t.clockSecond = t.time.second ↔ t.time.nanosecond < 1000000000 := by
  rw [clockSecond]
  omega

theorem stamp_eq_format_iff (t : DateTime) :
    t.stamp ' ' = t.format dateTimePattern ↔
      yearDigits t.date.year = Text.intDigits t.date.year ∧ t.clockSecond = t.time.second := by
  have hwritten : (Text.padded 2 t.clockSecond).length = (Text.padded 2 t.time.second).length := by
    obtain ⟨-, -, hsecond, -⟩ := t.time.exists_time
    have hclock := t.clockSecond_le
    rw [Text.length_padded (by decide) (by omega), Text.length_padded (by decide) (by omega)]
  rw [format_dateTimePattern, stamp]
  constructor
  · intro heq
    obtain ⟨hfront, hseconds⟩ := List.append_inj' heq (congrArg (· + 1) hwritten)
    refine ⟨?_, Text.padded_inj.mp (List.cons.inj hseconds).2⟩
    simpa only [List.append_cancel_right_eq] using hfront
  · rintro ⟨hyear, hsecond⟩
    rw [hyear, hsecond]

/-- A year that is written alike with and without padding, and no leap second. -/
def WritesAlike (t : DateTime) : Prop :=
  (1000 ≤ t.date.year ∧ t.date.year ≤ 9999 ∨ t.date.year ≤ -1000) ∧
    t.time.nanosecond < 1000000000

theorem formatText_eq_text_iff (t : DateTime) :
    t.formatText dateTimePattern = t.text ↔ t.WritesAlike := by
  rw [formatText, text, String.ofList_inj, eq_comm, stamp_eq_format_iff,
    yearDigits_eq_intDigits_iff, clockSecond_eq_iff, WritesAlike]

end DateTime

end Calendar

open Calendar

theorem typeName_dateTime_mem (t : DateTime) :
    (Value.dateTime t).typeName ∈ Formatter.dateInput :=
  show "datetime" ∈ Formatter.dateInput by decide

namespace Formatters

theorem apply_of_format {name : String} {f : Formatter} (hfind : builtIn.find name = .ok f)
    {v w : Value} {args : List Value} (hsupports : f.supports v = true)
    (hformat : f.format v args = .ok w) : builtIn.apply name v args = .ok w := by
  rw [apply, hfind]
  simp only [bind, Except.bind, hsupports, if_true, hformat, Except.mapError]

theorem apply_withPattern {name : String} {pattern : List Value → List Char}
    (hfind : builtIn.find name = .ok (Formatter.withPattern name pattern)) {v : Value}
    (hv : v.typeName ∈ Formatter.dateInput) {t : DateTime} (ht : v.toDateTime = .ok t)
    (args : List Value) :
    builtIn.apply name v args = .ok (.string (t.formatText (pattern args))) := by
  have hsupports : (Formatter.withPattern name pattern).supports v = true := by
    simp only [Formatter.withPattern, List.contains_iff_mem.mpr hv, Bool.or_true]
  apply apply_of_format hfind hsupports
  simp only [Formatter.withPattern, ht, Except.map]

theorem apply_toDateTime (t : DateTime) (args : List Value) :
    builtIn.apply "toDateTime" (.dateTime t) args =
      .ok (.string (t.formatText dateTimePattern)) := by
  have hfind : builtIn.find "toDateTime" = .ok Formatter.toDateTime := by rfl
  exact apply_withPattern hfind (typeName_dateTime_mem t) rfl args

end Formatters

/-- A date-time has the same text in templates and in statements; the formatter gives that text
exactly where year and second are written alike. -/
theorem apply_toDateTime_iff (t : DateTime) (args : List Value) :
    Clause.statementText (.dateTime t) = (Value.dateTime t).templateText ∧
      Formatters.builtIn.apply "toDateTime" (.dateTime t) args =
        .ok (.string (t.formatText dateTimePattern)) ∧
      (t.formatText dateTimePattern = (Value.dateTime t).templateText ↔ t.WritesAlike) := by
  refine ⟨?_, Formatters.apply_toDateTime t args, ?_⟩
  · rw [Clause.statementText, Value.templateText]
  · rw [Value.templateText, DateTime.formatText_eq_text_iff]

def newYear999 : DateTime :=
  ⟨⟨999, 1, 1, by decide⟩, .midnight⟩

theorem apply_toDateTime_newYear999 :
    (Value.dateTime newYear999).templateText = "0999-01-01 00:00:00" ∧
      Clause.statementText (.dateTime newYear999) = "0999-01-01 00:00:00" ∧
      Formatters.builtIn.apply "toDateTime" (.dateTime newYear999) [] =
        .ok (.string "999-01-01 00:00:00") := by
  rw [Formatters.apply_toDateTime]
  exact ⟨by rfl, by rfl, by rfl⟩

end Placeholder
