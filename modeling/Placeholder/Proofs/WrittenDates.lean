import Mathlib
import Placeholder.Proofs.CalendarOrder
import Placeholder.Proofs.DateTimeTexts
import Placeholder.Proofs.DaysOfMonth
import Placeholder.Proofs.WrittenDeclaration

/-!
# Dates written and read

The formatters write a year without zeros in front and every other part with two digits. Up to the
year 9999 the first layout reads such a date and time back, no layout in front of the last takes a
date alone, and the seconds since 1970 give the date-time they were counted for. What is lost is the
part of a second, so that the formatters write the same for a date-time and for its text.
-/

namespace Placeholder

namespace Calendar

open Clause (Stops stops_nil stops_cons takeWhile_append_of_stops)

/-! ### Numbers in front of a text -/

theorem stops_take {p : Char → Bool} {cs : List Char} (h : Stops p cs) (n : Nat) :
    Stops p (cs.take n) := by
  cases n with
  | zero => exact stops_nil p
  | succ n =>
    cases cs with
    | nil => exact stops_nil p
    | cons c cs => exact stops_cons.mpr (stops_cons.mp h)

/-- Digits are taken as a number when there are no more than `width`, and no further one follows
where there are less. -/
theorem takeNumber?_append {width : Nat} {digits rest : List Char} (hne : digits ≠ [])
    (hdigits : ∀ c ∈ digits, c.isDigit = true) (hlength : digits.length ≤ width)
    (hstops : digits.length = width ∨ Stops Char.isDigit rest) :
    takeNumber? width (digits ++ rest) = some (Text.digitsValue digits, rest) := by
  have hbehind : Stops Char.isDigit (rest.take (width - digits.length)) := by
    rcases hstops with hfull | hstops
    · rw [hfull, Nat.sub_self, List.take_zero]
      exact stops_nil _
    · exact stops_take hstops _
  have htake : ((digits ++ rest).take width).takeWhile Char.isDigit = digits := by
    rw [List.take_append, List.take_of_length_le hlength]
    exact (takeWhile_append_of_stops hdigits hbehind).1
  rw [takeNumber?, htake]
  simp only [List.isEmpty_eq_false_iff.mpr hne, Bool.false_eq_true, if_false, List.drop_left]

theorem length_padded_two {n : Nat} (hn : n < 100) : (Text.padded 2 n).length = 2 :=
  Text.length_padded (by decide) hn

theorem visible_padded_two {n : Nat} (hn : n < 100) : Text.Visible (Text.padded 2 n) := by
  have hlength := length_padded_two hn
  exact Text.visible_of_digits (List.ne_nil_of_length_pos (by omega)) Text.isDigit_of_mem_padded

theorem trimStart_append_of_visible {cs : List Char} (h : Text.Visible cs) (rest : List Char) :
    Text.trimStart Text.isBlank (cs ++ rest) = cs ++ rest := by
  obtain ⟨c, cs, rfl⟩ := List.exists_cons_of_ne_nil h.1
  exact Text.trimStart_cons_of_not_blank (h.2 c List.mem_cons_self) (cs ++ rest)

theorem takeField?_padded {f : Field} (hf : f ≠ .year) {n : Nat} (hn : n < 100) (rest : List Char) :
    takeField? f (Text.padded 2 n ++ rest) = some ((n : Int), rest) := by
  have hlength := length_padded_two hn
  have htake : takeNumber? 2 (Text.padded 2 n ++ rest) = some (n, rest) := by
    rw [takeNumber?_append (visible_padded_two hn).1 Text.isDigit_of_mem_padded hlength.le
      (Or.inl hlength), Text.digitsValue_padded]
  rw [← trimStart_append_of_visible (visible_padded_two hn) rest] at htake
  cases f with
  | year => exact absurd rfl hf
  | month | day | hour | minute | second => exact congrArg (Option.map _) htake

theorem takeYear?_of_digit {c : Char} (hc : c.isDigit = true) (cs : List Char) :
    takeYear? (c :: cs) = (takeNumber? 4 (c :: cs)).map fun (n, cs) => ((n : Int), cs) := by
  unfold takeYear?
  split
  · rename_i heq
    cases heq
    cases hc
  · rename_i heq
    cases heq
    cases hc
  · rfl

/-- A year has at most four digits without a sign, and any number of them behind one. -/
theorem takeField?_year {year : Int} (hyear : year ≤ 9999) {rest : List Char}
    (hrest : Stops Char.isDigit rest) :
    takeField? .year (Text.intDigits year ++ rest) = some (year, rest) := by
  have hne : Text.natDigits year.natAbs ≠ [] := Nat.toDigits_ne_nil
  have hdigits : ∀ c ∈ Text.natDigits year.natAbs, c.isDigit = true :=
    fun _ => Text.isDigit_of_mem_natDigits
  rw [takeField?, trimStart_append_of_visible (Text.visible_intDigits year)]
  by_cases hneg : year < 0
  · have hlength : (Text.natDigits year.natAbs).length ≤
        (Text.natDigits year.natAbs ++ rest).length :=
      (List.prefix_append _ rest).length_le
    have hvalue : -(year.natAbs : Int) = year := by omega
    rw [Text.intDigits, if_pos hneg, List.cons_append, takeYear?,
      takeNumber?_append hne hdigits hlength (Or.inr hrest), Option.map_some,
      Text.digitsValue_natDigits]
    simp only [hvalue]
  · have hlength : (Text.natDigits year.natAbs).length ≤ 4 :=
      (Nat.length_toDigits_le_iff (by decide) (by decide)).mpr (by omega)
    have hvalue : (year.natAbs : Int) = year := by omega
    obtain ⟨c, cs, heq⟩ := List.exists_cons_of_ne_nil hne
    have hc : c.isDigit = true := hdigits c (heq ▸ List.mem_cons_self)
    rw [Text.intDigits, if_neg hneg, heq, List.cons_append, takeYear?_of_digit hc,
      ← List.cons_append, ← heq, takeNumber?_append hne hdigits hlength (Or.inr hrest),
      Option.map_some, Text.digitsValue_natDigits]
    simp only [hvalue]

/-! ### Layouts -/

theorem readLayout?_field {f : Field} {n : Int} {cs rest : List Char} {fields fields' : Fields}
    (htake : takeField? f cs = some (n, rest)) (hset : fields.set? f n = some fields')
    (parts : List LayoutPart) :
    readLayout? (.field f :: parts) fields cs = readLayout? parts fields' rest := by
  rw [readLayout?, htake]
  simp only [Option.bind_eq_bind, Option.bind_some, hset]

theorem readLayout?_mark (c : Char) (parts : List LayoutPart) (fields : Fields) (cs : List Char) :
    readLayout? (.mark c :: parts) fields (c :: cs) = readLayout? parts fields cs := by
  rw [readLayout?, if_pos rfl]

/-- The date as the formatters write it. -/
def Date.written (d : Date) : List Char :=
  Text.intDigits d.year ++ '-' :: (Text.padded 2 d.month ++ '-' :: Text.padded 2 d.day)

/-- The time as the formatters write it. -/
def Time.written (t : Time) : List Char :=
  Text.padded 2 t.hour ++ ':' :: (Text.padded 2 t.minute ++ ':' :: Text.padded 2 t.second)

theorem readLayout?_date (d : Date) (hyear : d.year ≤ 9999) (parts : List LayoutPart)
    (rest : List Char) :
    readLayout? (dateLayout ++ parts) {} (d.written ++ rest) =
      readLayout? parts { year := d.year, month := d.month, day := d.day } rest := by
  obtain ⟨-, -, hfirst, hlast, hday, hlength⟩ := d.exists_date
  have hbound := (monthLength_bounds d.year hfirst hlast).2
  have hdash : ∀ cs, Stops Char.isDigit ('-' :: cs) := fun cs => stops_cons.mpr rfl
  simp only [dateLayout, Date.written, List.cons_append, List.nil_append, List.append_assoc]
  rw [readLayout?_field (takeField?_year hyear (hdash _)) rfl, readLayout?_mark,
    readLayout?_field (takeField?_padded (by decide) (by omega) _)
      (by rw [Fields.set?, Int.toNat_natCast, if_pos ⟨hfirst, hlast⟩]),
    readLayout?_mark,
    readLayout?_field (takeField?_padded (by decide) (by omega) _)
      (by rw [Fields.set?, Int.toNat_natCast, if_pos ⟨hday, by omega⟩])]

theorem readLayout?_time (t : Time) (fields : Fields) :
    readLayout? secondLayout fields t.written =
      some { fields with hour := t.hour, minute := t.minute, second := t.second } := by
  obtain ⟨hhour, hminute, hsecond, -⟩ := t.exists_time
  have hlast := takeField?_padded (f := .second) (by decide) (show t.second < 100 by omega) []
  rw [List.append_nil] at hlast
  simp only [secondLayout, minuteLayout, Time.written, List.cons_append, List.nil_append]
  rw [readLayout?_field (takeField?_padded (by decide) (by omega) _)
      (by rw [Fields.set?, Int.toNat_natCast, if_pos (by omega)]),
    readLayout?_mark,
    readLayout?_field (takeField?_padded (by decide) (by omega) _)
      (by rw [Fields.set?, Int.toNat_natCast, if_pos (by omega)]),
    readLayout?_mark,
    readLayout?_field hlast (by rw [Fields.set?, Int.toNat_natCast, if_pos (by omega)])]
  rfl

/-! ### Whole texts -/

namespace DateTime

/-- The date-time without the part of a second; a leap second becomes the second before it. -/
def toSecond (t : DateTime) : DateTime :=
  ⟨t.date, ⟨t.time.hour, t.time.minute, t.time.second, 0,
    ⟨t.time.exists_time.1, t.time.exists_time.2.1, t.time.exists_time.2.2.1, by decide⟩⟩⟩

theorem toSecond_eq_iff (t : DateTime) : t.toSecond = t ↔ t.time.nanosecond = 0 := by
  constructor
  · intro heq
    rw [← heq]
    rfl
  · intro hzero
    exact eq_of_timestamp_eq rfl hzero.symm

theorem format_dateTimePattern_eq_written (t : DateTime) :
    t.format dateTimePattern = t.date.written ++ ' ' :: t.time.written := by
  rw [format_dateTimePattern, Date.written, Time.written]
  simp only [List.append_assoc, List.cons_append]

theorem format_datePattern (t : DateTime) : t.format datePattern = t.date.written := by
  have hpattern : datePattern = ['Y', '-', 'm', '-', 'd'] := by decide
  have hfilled : t.format datePattern =
      Text.intDigits t.date.year ++ (['-'] ++ (Text.padded 2 t.date.month ++ (['-'] ++
        (Text.padded 2 t.date.day ++ [])))) := by
    rw [hpattern]
    rfl
  rw [hfilled, List.append_nil]
  rfl

theorem format_timePattern (t : DateTime) : t.format "H:i:s".toList = t.time.written := by
  have hpattern : "H:i:s".toList = ['H', ':', 'i', ':', 's'] := by decide
  have hfilled : t.format "H:i:s".toList =
      Text.padded 2 t.time.hour ++ ([':'] ++ (Text.padded 2 t.time.minute ++ ([':'] ++
        (Text.padded 2 t.time.second ++ [])))) := by
    rw [hpattern]
    rfl
  rw [hfilled, List.append_nil]
  rfl

theorem read?_dateTime (t : DateTime) (hyear : t.date.year ≤ 9999) :
    read? (t.date.written ++ ' ' :: t.time.written) = some t.toSecond := by
  have hgap : Text.trimStart Text.isBlank (' ' :: t.time.written) = t.time.written := by
    obtain ⟨hhour, -⟩ := t.time.exists_time
    exact trimStart_append_of_visible (visible_padded_two (by omega)) _
  have hfields : readLayout? (dateLayout ++ .gap :: secondLayout) {}
      (t.date.written ++ ' ' :: t.time.written) = some
        ⟨t.date.year, t.date.month, t.date.day, t.time.hour, t.time.minute, t.time.second, 0⟩ := by
    rw [readLayout?_date t.date hyear, readLayout?, hgap, readLayout?_time]
  have hdate : Date.of? t.date.year t.date.month t.date.day = some t.date :=
    Date.of?_eq_some_iff.mpr ⟨rfl, rfl, rfl⟩
  have htime : Time.of? t.time.hour t.time.minute t.time.second 0 = some t.toSecond.time :=
    Time.of?_eq_some_iff.mpr ⟨rfl, rfl, rfl, rfl⟩
  have hfirst : (readLayout? (dateLayout ++ .gap :: secondLayout) {}
      (t.date.written ++ ' ' :: t.time.written)).bind Fields.dateTime? = some t.toSecond := by
    have hsecond : t.time.second ≠ 60 := ne_of_lt t.time.exists_time.2.2.1
    rw [hfields, Option.bind_some, Fields.dateTime?, Fields.date?, hdate, Fields.time?,
      if_neg hsecond, htime]
    rfl
  rw [read?, dateTimeLayouts, List.findSome?_cons, hfirst]
  rfl

end DateTime

theorem takeFixed?_length {width : Nat} {marks cs rest : List Char} {n : Nat}
    (h : takeFixed? width marks cs = some (n, rest)) :
    rest.length + width + (if marks.isEmpty then 0 else 1) = cs.length := by
  unfold takeFixed? at h
  obtain ⟨⟨k, behind⟩, -, h⟩ := Option.bind_eq_some_iff.mp h
  dsimp only at h
  by_cases hlength : behind.length + width = cs.length
  · by_cases hmarks : marks.isEmpty = true
    · rw [if_neg (not_not.mpr hlength), if_pos hmarks] at h
      cases h
      rw [if_pos hmarks, Nat.add_zero, hlength]
    · rw [if_neg (not_not.mpr hlength), if_neg hmarks] at h
      cases behind with
      | nil => cases h
      | cons c behind =>
        simp only at h
        split_ifs at h
        cases h
        rw [if_neg hmarks, ← hlength, List.length_cons]
        omega
  · rw [if_pos hlength] at h
    cases h

/-- A date-time with a zone has 19 characters before its zone. -/
theorem readZoned?_of_short {cs : List Char} (h : cs.length < 19) : readZoned? cs = none := by
  rw [Option.eq_none_iff_forall_ne_some]
  intro t hread
  unfold readZoned? at hread
  obtain ⟨⟨year, cs₁⟩, hyear, hread⟩ := Option.bind_eq_some_iff.mp hread
  obtain ⟨⟨month, cs₂⟩, hmonth, hread⟩ := Option.bind_eq_some_iff.mp hread
  obtain ⟨⟨day, cs₃⟩, hday, hread⟩ := Option.bind_eq_some_iff.mp hread
  obtain ⟨⟨hour, cs₄⟩, hhour, hread⟩ := Option.bind_eq_some_iff.mp hread
  obtain ⟨⟨minute, cs₅⟩, hminute, hread⟩ := Option.bind_eq_some_iff.mp hread
  obtain ⟨⟨second, cs₆⟩, hsecond, -⟩ := Option.bind_eq_some_iff.mp hread
  have hyear := takeFixed?_length hyear
  have hmonth := takeFixed?_length hmonth
  have hday := takeFixed?_length hday
  have hhour := takeFixed?_length hhour
  have hminute := takeFixed?_length hminute
  have hsecond := takeFixed?_length hsecond
  simp only [List.isEmpty_cons, List.isEmpty_nil, Bool.false_eq_true, if_false, if_true]
    at hyear hmonth hday hhour hminute hsecond
  omega

theorem Date.length_written (d : Date) : d.written.length < 19 := by
  obtain ⟨hmin, hmax, hfirst, hlast, hday, hlength⟩ := d.exists_date
  have hbound := (monthLength_bounds d.year hfirst hlast).2
  unfold minYear at hmin
  unfold maxYear at hmax
  have hyear : (Text.natDigits d.year.natAbs).length ≤ 6 :=
    (Nat.length_toDigits_le_iff (by decide) (by decide)).mpr (by omega)
  have hsigned : (Text.intDigits d.year).length ≤ 7 := by
    unfold Text.intDigits
    split
    · rw [List.length_cons]
      omega
    · omega
  have hmonth := length_padded_two (show d.month < 100 by omega)
  have hdays := length_padded_two (show d.day < 100 by omega)
  simp only [Date.written, List.length_append, List.length_cons, hmonth, hdays]
  omega

theorem DateTime.read?_date (d : Date) (hyear : d.year ≤ 9999) :
    read? d.written = some ⟨d, .midnight⟩ := by
  have hlayout (parts : List LayoutPart) := readLayout?_date d hyear parts []
  simp only [List.append_nil] at hlayout
  have hdateTimes : (dateTimeLayouts.findSome? fun layout =>
      (readLayout? layout {} d.written).bind Fields.dateTime?) = none := by
    simp only [dateTimeLayouts, List.findSome?_cons, hlayout]
    rfl
  have hdate : Date.of? d.year d.month d.day = some d := Date.of?_eq_some_iff.mpr ⟨rfl, rfl, rfl⟩
  have hfields := hlayout []
  rw [List.append_nil] at hfields
  rw [read?, hdateTimes, readZoned?_of_short d.length_written, hfields, readLayout?,
    List.isEmpty_nil, if_pos rfl, Option.bind_some, Fields.date?, hdate]
  rfl

namespace DateTime

theorem trimmed_written (d : Date) {rest : List Char} (h : Text.EndsVisible (d.written ++ rest)) :
    Text.Trimmed (d.written ++ rest) := by
  obtain ⟨c, cs, heq⟩ := List.exists_cons_of_ne_nil (Text.visible_intDigits d.year).1
  have hc : Text.isBlank c = false :=
    (Text.visible_intDigits d.year).2 c (heq ▸ List.mem_cons_self)
  simp only [Date.written, heq, List.cons_append] at h ⊢
  exact h.trimmed_cons hc

theorem read?_trim_dateTime (t : DateTime) (hyear : t.date.year ≤ 9999) :
    read? (Text.trim (t.format dateTimePattern)) = some t.toSecond := by
  have hends : Text.EndsVisible (t.date.written ++ ' ' :: t.time.written) := by
    have hsecond : t.time.second < 100 := t.time.exists_time.2.2.1.trans (by decide)
    have hlast := (visible_padded_two hsecond).endsVisible
    exact ((((hlast.append_left [':']).append_left _).append_left [':']).append_left _).append_left
      [' '] |>.append_left _
  have htrim := trimmed_written t.date hends
  rw [format_dateTimePattern_eq_written, htrim, read?_dateTime t hyear]

theorem read?_trim_date (t : DateTime) (hyear : t.date.year ≤ 9999) :
    read? (Text.trim (t.format datePattern)) = some t.startOfDay := by
  have hends : Text.EndsVisible (t.date.written ++ []) := by
    obtain ⟨-, -, hfirst, hlast, hday, hlength⟩ := t.date.exists_date
    have hbound := (monthLength_bounds t.date.year hfirst hlast).2
    have hend := (visible_padded_two (show t.date.day < 100 by omega)).endsVisible
    rw [List.append_nil]
    exact (((hend.append_left ['-']).append_left _).append_left ['-']).append_left _
  have htrim := trimmed_written t.date hends
  rw [List.append_nil] at htrim
  rw [format_datePattern, htrim, read?_date t.date hyear]
  rfl

/-! ### Seconds since 1970 -/

theorem toInt_clampInt64_timestamp (t : DateTime) : (clampInt64 t.timestamp).toInt = t.timestamp := by
  obtain ⟨hmin, hmax, -⟩ := t.date.exists_date
  have hday := t.date.dayOfYear_lt
  have hsecond := t.time.secondOfDay_lt
  have hlength : yearLength t.date.year ≤ 366 := by
    unfold yearLength
    split <;> decide
  unfold minYear at hmin
  unfold maxYear at hmax
  apply toInt_clampInt64_of_bounds
  · simp only [timestamp, Date.dayNumber, daysBeforeYear, epochDay]
    omega
  · simp only [timestamp, Date.dayNumber, daysBeforeYear, epochDay]
    omega

theorem timestamp_toSecond (t : DateTime) : t.toSecond.timestamp = t.timestamp := by
  rfl

theorem toDateTime_ofTimestamp (t : DateTime) :
    (Value.ofTimestamp t).toDateTime = .ok t.toSecond := by
  have hfound : ofTimestamp? (clampInt64 t.timestamp).toInt 0 = some t.toSecond := by
    rw [toInt_clampInt64_timestamp]
    exact ofTimestamp?_eq_some_iff.mpr ⟨timestamp_toSecond t, rfl⟩
  unfold Value.ofTimestamp Value.toDateTime
  simp only [hfound]

end DateTime

end Calendar

open Calendar

/-! ### Formatters -/

theorem Formatters.apply_toUnixTime {v : Value} {t : DateTime}
    (hv : v.typeName ∈ Formatter.dateInput) (ht : v.toDateTime = .ok t) (args : List Value)
    (hint : v.typeName ≠ "int") :
    builtIn.apply "toUnixTime" v args = .ok (Value.ofTimestamp t) := by
  have hmap : v.toDateTime.map Value.ofTimestamp = .ok (Value.ofTimestamp t) := by
    rw [ht, Except.map]
  have hsupports : Formatter.toUnixTime.supports v = true := by
    simp only [Formatter.toUnixTime, List.contains_iff_mem.mpr hv, Bool.or_true]
  apply apply_of_format (by rfl) hsupports
  cases v with
  | int n => exact absurd rfl hint
  | _ => exact hmap

/-- The formatters that write a date, a time or a number of seconds without reading arguments. -/
def clockFormatters : List String :=
  ["toDateTime", "toDateString", "toTimeString", "toUnixTime"]

section

variable {t : DateTime} {s : String} (hs : (Value.string s).toDateTime = .ok t.toSecond)
include hs

theorem apply_withPattern_string {name : String} {pattern : List Value → List Char}
    (hfind : Formatters.builtIn.find name = .ok (Formatter.withPattern name pattern))
    {args : List Value} (halike : t.toSecond.format (pattern args) = t.format (pattern args)) :
    Formatters.builtIn.apply name (.string s) args =
      Formatters.builtIn.apply name (.dateTime t) args := by
  have hstring : (Value.string s).typeName ∈ Formatter.dateInput :=
    show "string" ∈ Formatter.dateInput by decide
  have ht : (Value.dateTime t).toDateTime = .ok t := rfl
  rw [Formatters.apply_withPattern hfind hstring hs args,
    Formatters.apply_withPattern hfind (typeName_dateTime_mem t) ht args, DateTime.formatText,
    halike, DateTime.formatText]

/-- A text that is read as the date-time up to its seconds is written like the date-time. -/
theorem apply_clockFormatters {name : String} (hname : name ∈ clockFormatters)
    (args : List Value) : Formatters.builtIn.apply name (.string s) args =
      Formatters.builtIn.apply name (.dateTime t) args := by
  have hname : name = "toDateTime" ∨ name = "toDateString" ∨ name = "toTimeString" ∨
      name = "toUnixTime" := by
    simpa only [clockFormatters, List.mem_cons, List.not_mem_nil, or_false] using hname
  rcases hname with rfl | rfl | rfl | rfl
  · apply apply_withPattern_string hs (by rfl)
    rw [DateTime.format_dateTimePattern_eq_written, DateTime.format_dateTimePattern_eq_written]
    rfl
  · apply apply_withPattern_string hs (by rfl)
    rw [DateTime.format_datePattern, DateTime.format_datePattern]
    rfl
  · apply apply_withPattern_string hs (by rfl)
    rw [DateTime.format_timePattern, DateTime.format_timePattern]
    rfl
  · have hstring : (Value.string s).typeName ∈ Formatter.dateInput :=
      show "string" ∈ Formatter.dateInput by decide
    rw [Formatters.apply_toUnixTime hstring hs args (show "string" ≠ "int" by decide),
      Formatters.apply_toUnixTime (typeName_dateTime_mem t) rfl args
        (show "datetime" ≠ "int" by decide), Value.ofTimestamp, Value.ofTimestamp,
      DateTime.timestamp_toSecond]

end

theorem toDateTime_string {t : DateTime} {cs : List Char}
    (hread : DateTime.read? (Text.trim cs) = some t) :
    (Value.string (String.ofList cs)).toDateTime = .ok t := by
  unfold Value.toDateTime
  simp only [String.toList_ofList, hread]

/-- What the formatters write of a date-time up to the year 9999 is read as this date-time without
its part of a second, and as midnight where the time is left out. So a date-time in whole seconds is
read back, a leap second as the second before it, and the formatters write the same for the text as
for the date-time. -/
theorem written_dates_are_read (t : DateTime) (hyear : t.date.year ≤ 9999) (args : List Value) :
    (t.toSecond = t ↔ t.time.nanosecond = 0) ∧
      ∃ dateTimeText dateText seconds,
        Formatters.builtIn.apply "toDateTime" (.dateTime t) args = .ok (.string dateTimeText) ∧
        Formatters.builtIn.apply "toDateString" (.dateTime t) args = .ok (.string dateText) ∧
        Formatters.builtIn.apply "toUnixTime" (.dateTime t) args = .ok (.int seconds) ∧
        (Value.string dateTimeText).toDateTime = .ok t.toSecond ∧
        (Value.string dateText).toDateTime = .ok t.startOfDay ∧
        (Value.int seconds).toDateTime = .ok t.toSecond ∧
        ∀ name ∈ clockFormatters,
          Formatters.builtIn.apply name (.string dateTimeText) args =
            Formatters.builtIn.apply name (.dateTime t) args := by
  have hread : (Value.dateTime t).toDateTime = .ok t := rfl
  have hdateTime : (Value.string (t.formatText dateTimePattern)).toDateTime = .ok t.toSecond :=
    toDateTime_string (t.read?_trim_dateTime hyear)
  have hfind : Formatters.builtIn.find "toDateString" = .ok Formatter.toDateString := by rfl
  have hdateText : Formatters.builtIn.apply "toDateString" (.dateTime t) args =
      .ok (.string (t.formatText datePattern)) :=
    Formatters.apply_withPattern hfind (typeName_dateTime_mem t) hread args
  have hseconds : Formatters.builtIn.apply "toUnixTime" (.dateTime t) args =
      .ok (.int (clampInt64 t.timestamp)) :=
    Formatters.apply_toUnixTime (typeName_dateTime_mem t) hread args
      (show "datetime" ≠ "int" by decide)
  refine ⟨t.toSecond_eq_iff, _, _, _, Formatters.apply_toDateTime t args, hdateText, hseconds,
    hdateTime, toDateTime_string (t.read?_trim_date hyear), t.toDateTime_ofTimestamp, ?_⟩
  intro name hname
  exact apply_clockFormatters hdateTime hname args

/-- The evening of a leap day before the year 0. -/
def leapDayEvening : DateTime :=
  ⟨⟨-4, 2, 29, by decide⟩, ⟨23, 5, 0, 0, by decide⟩⟩

theorem written_leapDayEvening_is_read : leapDayEvening.date.year ≤ 9999 ∧
    Formatters.builtIn.apply "toDateTime" (.dateTime leapDayEvening) [] =
      .ok (.string "-4-02-29 23:05:00") ∧
    (Value.string "-4-02-29 23:05:00").toDateTime = .ok leapDayEvening ∧
    "toUnixTime" ∈ clockFormatters ∧
    Formatters.builtIn.apply "toUnixTime" (.string "-4-02-29 23:05:00") [] =
      Formatters.builtIn.apply "toUnixTime" (.dateTime leapDayEvening) [] := by
  obtain ⟨-, text, -, -, hwritten, -, -, hread, -, -, halike⟩ :=
    written_dates_are_read leapDayEvening (by decide) []
  have htext : Formatters.builtIn.apply "toDateTime" (.dateTime leapDayEvening) [] =
      .ok (.string "-4-02-29 23:05:00") := by
    rw [Formatters.apply_toDateTime]
    rfl
  obtain rfl : text = "-4-02-29 23:05:00" := by
    have heq := hwritten.symm.trans htext
    simpa only [Except.ok.injEq, Value.string.injEq] using heq
  exact ⟨by decide, htext, hread, by decide, halike "toUnixTime" (by decide)⟩

end Placeholder
