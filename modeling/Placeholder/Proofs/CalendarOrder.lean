import Mathlib
import Placeholder.Calendar.DateTime

/-!
# The order of dates

The number of a day counts the dates in their order without a gap: each date has its number, a later
date has a larger one, and the date is found again from the number. So the seconds since the epoch
order the date-times, and a date-time some seconds later exists exactly when the calendar has one.
-/

namespace Placeholder.Calendar

def yearLength (year : Int) : Nat :=
  if isLeapYear year then 366 else 365

/-! ### Years -/

theorem isLeapYear_iff (year : Int) :
    isLeapYear year = true ↔ year % 4 = 0 ∧ (year % 100 ≠ 0 ∨ year % 400 = 0) := by
  simp [isLeapYear]

/-- The place of a year in its cycle of four centuries: centuries, then fours, then single years. -/
structure YearDigits (year : Int) (a : Int) (b c d : Nat) : Prop where
  century : b < 4
  quad : c < 25
  single : d < 4
  year_eq : year = 400 * a + 100 * b + 4 * c + d + 1

section

variable {year a : Int} {b c d r : Nat}

theorem exists_yearDigits (year : Int) : ∃ a b c d, YearDigits year a b c d :=
  ⟨(year - 1) / 400, ((year - 1) % 400 / 100).toNat, ((year - 1) % 100 / 4).toNat,
    ((year - 1) % 4).toNat, by omega, by omega, by omega, by omega⟩

theorem YearDigits.daysBeforeYear_eq (h : YearDigits year a b c d) :
    daysBeforeYear year = 146097 * a + 36524 * b + 1461 * c + 365 * d := by
  obtain ⟨hb, hc, hd, rfl⟩ := h
  have hfours : (400 * a + 100 * b + 4 * c + d + 1 - 1) / 4 = 100 * a + 25 * b + c := by omega
  have hcenturies : (400 * a + 100 * b + 4 * c + d + 1 - 1) / 100 = 4 * a + b := by omega
  have hcycles : (400 * a + 100 * b + 4 * c + d + 1 - 1) / 400 = a := by omega
  simp only [daysBeforeYear, hfours, hcenturies, hcycles]
  omega

theorem YearDigits.lt_yearLength_iff (h : YearDigits year a b c d) (r : Nat) :
    r < yearLength year ↔ r < 365 ∨ r = 365 ∧ d = 3 ∧ (c ≠ 24 ∨ b = 3) := by
  obtain ⟨hb, hc, hd, hyear⟩ := h
  have hleap : isLeapYear year = true ↔ d = 3 ∧ (c ≠ 24 ∨ b = 3) := by
    rw [isLeapYear_iff]
    have hfour : year % 4 = 0 ↔ d = 3 := by omega
    have hcentury : year % 100 = 0 ↔ d = 3 ∧ c = 24 := by omega
    have hcycle : year % 400 = 0 ↔ d = 3 ∧ c = 24 ∧ b = 3 := by omega
    rw [ne_eq, hfour, hcentury, hcycle]
    tauto
  unfold yearLength
  by_cases hyear : isLeapYear year = true
  · have hdigits := hleap.mp hyear
    rw [if_pos hyear]
    omega
  · have hdigits := mt hleap.mpr hyear
    rw [if_neg hyear]
    omega

theorem yearAndDay_digits (a : Int) (hb : b < 4) (hc : c < 25) (hd : d < 4)
    (hr : r < 365 ∨ r = 365 ∧ d = 3 ∧ (c ≠ 24 ∨ b = 3)) :
    yearAndDay (146097 * a + 36524 * b + 1461 * c + 365 * d + r) =
      (400 * a + 100 * b + 4 * c + d + 1, r) := by
  have hcycle : (146097 * a + 36524 * b + 1461 * c + 365 * d + r) / 146097 = a := by omega
  have hrest : ((146097 * a + 36524 * b + 1461 * c + 365 * d + r) % 146097).toNat =
      36524 * b + 1461 * c + 365 * d + r := by omega
  have hcentury : min ((36524 * b + 1461 * c + 365 * d + r) / 36524) 3 = b := by omega
  have hyears : 36524 * b + 1461 * c + 365 * d + r - b * 36524 = 1461 * c + 365 * d + r := by omega
  have hquad : (1461 * c + 365 * d + r) / 1461 = c := by omega
  have hquadYears : 1461 * c + 365 * d + r - c * 1461 = 365 * d + r := by omega
  have hsingle : min ((365 * d + r) / 365) 3 = d := by omega
  have hday : 365 * d + r - d * 365 = r := by omega
  simp only [yearAndDay, hcycle, hrest, hcentury, hyears, hquad, hquadYears, hsingle, hday]

theorem yearAndDay_daysBeforeYear (year : Int) {r : Nat} (hr : r < yearLength year) :
    yearAndDay (daysBeforeYear year + r) = (year, r) := by
  obtain ⟨a, b, c, d, h⟩ := exists_yearDigits year
  have hday := (h.lt_yearLength_iff r).mp hr
  rw [h.daysBeforeYear_eq, yearAndDay_digits a h.century h.quad h.single hday, ← h.year_eq]

theorem exists_day_digits (n : Int) : ∃ (a : Int) (b c d r : Nat), b < 4 ∧ c < 25 ∧ d < 4 ∧
    (r < 365 ∨ r = 365 ∧ d = 3 ∧ (c ≠ 24 ∨ b = 3)) ∧
    n = 146097 * a + 36524 * b + 1461 * c + 365 * d + r := by
  obtain ⟨m, hm⟩ : ∃ m : Nat, (m : Int) = n % 146097 := ⟨(n % 146097).toNat, by omega⟩
  obtain ⟨b, hb⟩ : ∃ b, b = min (m / 36524) 3 := ⟨_, rfl⟩
  obtain ⟨p, hp⟩ : ∃ p, m = 36524 * b + p := ⟨m - 36524 * b, by omega⟩
  obtain ⟨c, hc⟩ : ∃ c, c = p / 1461 := ⟨_, rfl⟩
  obtain ⟨q, hq⟩ : ∃ q, p = 1461 * c + q := ⟨p - 1461 * c, by omega⟩
  obtain ⟨d, hd⟩ : ∃ d, d = min (q / 365) 3 := ⟨_, rfl⟩
  refine ⟨n / 146097, b, c, d, q - 365 * d, by omega, by omega, by omega, by omega, by omega⟩

/-- A day is found in the year that it belongs to. -/
theorem daysBeforeYear_yearAndDay (n : Int) :
    daysBeforeYear (yearAndDay n).1 + (yearAndDay n).2 = n ∧
      (yearAndDay n).2 < yearLength (yearAndDay n).1 := by
  obtain ⟨a, b, c, d, r, hb, hc, hd, hr, rfl⟩ := exists_day_digits n
  have hdigits : YearDigits (400 * a + 100 * b + 4 * c + d + 1) a b c d := ⟨hb, hc, hd, rfl⟩
  rw [yearAndDay_digits a hb hc hd hr]
  exact ⟨by rw [hdigits.daysBeforeYear_eq], (hdigits.lt_yearLength_iff r).mpr hr⟩

end

theorem daysBeforeYear_add_le {year later : Int} (h : year < later) :
    daysBeforeYear year + yearLength year ≤ daysBeforeYear later := by
  have hnext : daysBeforeYear year + yearLength year = daysBeforeYear (year + 1) := by
    obtain ⟨a, b, c, d, hdigits⟩ := exists_yearDigits year
    have hlast := hdigits.lt_yearLength_iff 365
    have hlength : yearLength year = 365 ∨ yearLength year = 366 := by
      unfold yearLength
      split <;> simp
    obtain ⟨hb, hc, hd, hyear⟩ := id hdigits
    rw [hdigits.daysBeforeYear_eq]
    simp only [daysBeforeYear]
    omega
  rw [hnext]
  simp only [daysBeforeYear]
  omega

/-! ### Months -/

theorem daysBeforeMonth_add_le (year : Int) {month later : Nat} (hmonth : 1 ≤ month)
    (h : month < later) (hlater : later ≤ 12) :
    daysBeforeMonth year month + monthLength year month ≤ daysBeforeMonth year later := by
  have htable : ∀ leap : Bool, ∀ m < 12, ∀ n < 12, m < n →
      ((monthLengths leap).take m).foldr (· + ·) 0 + (monthLengths leap).getD m 0 ≤
        ((monthLengths leap).take n).foldr (· + ·) 0 := by decide
  rw [daysBeforeMonth, daysBeforeMonth, monthLength, if_neg (by omega)]
  exact htable (isLeapYear year) (month - 1) (by omega) (later - 1) (by omega) (by omega)

theorem daysBeforeMonth_add_le_yearLength (year : Int) {month : Nat} (hmonth : 1 ≤ month)
    (h : month ≤ 12) : daysBeforeMonth year month + monthLength year month ≤ yearLength year := by
  have htable : ∀ leap : Bool, ∀ m < 12,
      ((monthLengths leap).take m).foldr (· + ·) 0 + (monthLengths leap).getD m 0 ≤
        if leap then 366 else 365 := by decide
  rw [daysBeforeMonth, monthLength, if_neg (by omega)]
  exact htable (isLeapYear year) (month - 1) (by omega)

/-- The month and day of a year are found from the days before them. -/
theorem monthAndDay_eq (lengths : List Nat) (start : Nat) {index before : Nat}
    (h : before < lengths.getD index 0) :
    monthAndDay lengths start ((lengths.take index).foldr (· + ·) 0 + before) =
      (start + index, before) := by
  induction lengths generalizing start index with
  | nil => simp at h
  | cons length lengths ih =>
    cases index with
    | zero =>
      have hbefore : before < length := h
      simp [monthAndDay, hbefore]
    | succ index =>
      have hnot : ¬ length + (lengths.take index).foldr (· + ·) 0 + before < length := by omega
      have hrest : length + (lengths.take index).foldr (· + ·) 0 + before - length =
          (lengths.take index).foldr (· + ·) 0 + before := by omega
      rw [List.take_succ_cons, List.foldr_cons, monthAndDay, if_neg hnot, hrest, ih (start + 1) h]
      simp only [Prod.mk.injEq, and_true]
      omega

theorem exists_monthAndDay (lengths : List Nat) {before : Nat}
    (h : before < lengths.foldr (· + ·) 0) : ∃ index day, day < lengths.getD index 0 ∧
      index < lengths.length ∧ before = (lengths.take index).foldr (· + ·) 0 + day := by
  induction lengths generalizing before with
  | nil => simp at h
  | cons length lengths ih =>
    by_cases hfirst : before < length
    · exact ⟨0, before, hfirst, Nat.succ_pos _, by simp⟩
    · have hrest : before - length < lengths.foldr (· + ·) 0 := by
        rw [List.foldr_cons] at h
        omega
      obtain ⟨index, day, hday, hindex, hbefore⟩ := ih hrest
      refine ⟨index + 1, day, hday, Nat.succ_lt_succ hindex, ?_⟩
      rw [List.take_succ_cons, List.foldr_cons]
      omega

/-! ### Dates -/

namespace Date

def Before (a b : Date) : Prop :=
  a.year < b.year ∨ a.year = b.year ∧ (a.month < b.month ∨ a.month = b.month ∧ a.day < b.day)

theorem before_trichotomy (a b : Date) : a.Before b ∨ a = b ∨ b.Before a := by
  obtain ⟨ya, ma, da, ha⟩ := a
  obtain ⟨yb, mb, db, hb⟩ := b
  simp only [Before, mk.injEq]
  omega

theorem eq_of_digits {a b : Date} (hyear : a.year = b.year) (hmonth : a.month = b.month)
    (hday : a.day = b.day) : a = b := by
  rcases before_trichotomy a b with hbefore | heq | hafter
  · unfold Before at hbefore
    omega
  · exact heq
  · unfold Before at hafter
    omega

theorem dayOfYear_lt (d : Date) : d.dayOfYear < yearLength d.year := by
  obtain ⟨-, -, hfirst, hlast, hday, hlength⟩ := d.exists_date
  have hmonth := daysBeforeMonth_add_le_yearLength d.year hfirst hlast
  unfold dayOfYear
  omega

theorem weekday_lt (d : Date) : d.weekday < 7 := by
  unfold weekday
  omega

theorem dayNumber_lt {a b : Date} (h : a.Before b) : a.dayNumber < b.dayNumber := by
  obtain ⟨-, -, hfirst, hlast, hday, hlength⟩ := a.exists_date
  obtain ⟨-, -, hfirst', hlast', hday', hlength'⟩ := b.exists_date
  unfold dayNumber
  rcases h with hyear | ⟨hyear, hmonth | ⟨hmonth, hlt⟩⟩
  · have hbefore := daysBeforeYear_add_le hyear
    have hlt := a.dayOfYear_lt
    omega
  · have hbefore := daysBeforeMonth_add_le a.year hfirst hmonth hlast'
    simp only [dayOfYear, ← hyear]
    omega
  · simp only [dayOfYear, ← hyear, ← hmonth]
    omega

theorem of?_eq_some_iff {year : Int} {month day : Nat} {d : Date} :
    of? year month day = some d ↔ d.year = year ∧ d.month = month ∧ d.day = day := by
  unfold of?
  split
  · rename_i h
    constructor
    · rintro ⟨⟩
      exact ⟨rfl, rfl, rfl⟩
    · rintro ⟨rfl, rfl, rfl⟩
      rfl
  · rename_i h
    constructor
    · rintro ⟨⟩
    · rintro ⟨rfl, rfl, rfl⟩
      exact absurd d.exists_date h

theorem ofDayNumber?_dayNumber (d : Date) : ofDayNumber? d.dayNumber = some d := by
  obtain ⟨-, -, hfirst, hlast, hday, hlength⟩ := d.exists_date
  have hnumber : d.dayNumber + epochDay = daysBeforeYear d.year + d.dayOfYear := by
    unfold dayNumber
    omega
  have hbefore : d.day - 1 < (monthLengths (isLeapYear d.year)).getD (d.month - 1) 0 := by
    rw [monthLength, if_neg (by omega)] at hlength
    omega
  have hmonth := monthAndDay_eq _ 1 hbefore
  rw [ofDayNumber?, hnumber, yearAndDay_daysBeforeYear d.year d.dayOfYear_lt]
  simp only [dayOfYear, daysBeforeMonth, hmonth]
  rw [of?_eq_some_iff]
  omega

/-- The date of a day number, as long as there is one. -/
theorem ofDayNumber?_eq_some_iff {n : Int} {d : Date} :
    ofDayNumber? n = some d ↔ d.dayNumber = n := by
  refine ⟨fun h => ?_, fun h => by rw [← h, ofDayNumber?_dayNumber]⟩
  obtain ⟨hday, hlt⟩ := daysBeforeYear_yearAndDay (n + epochDay)
  rcases hyear : yearAndDay (n + epochDay) with ⟨year, rest⟩
  rw [hyear] at hday hlt
  have htotal : ∀ leap : Bool, (monthLengths leap).foldr (· + ·) 0 = if leap then 366 else 365 := by
    decide
  obtain ⟨index, day, hlength, -, hrest⟩ :=
    exists_monthAndDay (monthLengths (isLeapYear year)) (show rest < _ by rw [htotal]; exact hlt)
  have hmonth := monthAndDay_eq _ 1 hlength
  simp only at hday
  rw [ofDayNumber?, hyear] at h
  simp only [hrest, hmonth] at h
  obtain ⟨rfl, hindex, hnext⟩ := of?_eq_some_iff.mp h
  have hstart : daysBeforeMonth d.year d.month + (d.day - 1) = rest := by
    rw [hrest, daysBeforeMonth, hindex, hnext]
    simp
  unfold dayNumber dayOfYear
  omega

end Date

/-! ### Date-times -/

theorem Time.secondOfDay_lt (t : Time) : t.secondOfDay < 86400 := by
  obtain ⟨hhour, hminute, hsecond, -⟩ := t.exists_time
  unfold secondOfDay
  omega

theorem Time.of?_eq_some_iff {hour minute second nanosecond : Nat} {t : Time} :
    of? hour minute second nanosecond = some t ↔
      t.hour = hour ∧ t.minute = minute ∧ t.second = second ∧ t.nanosecond = nanosecond := by
  unfold of?
  split
  · constructor
    · rintro ⟨⟩
      exact ⟨rfl, rfl, rfl, rfl⟩
    · rintro ⟨rfl, rfl, rfl, rfl⟩
      rfl
  · rename_i h
    constructor
    · rintro ⟨⟩
    · rintro ⟨rfl, rfl, rfl, rfl⟩
      exact absurd t.exists_time h

theorem Time.ofSecondOfDay?_eq_some_iff {seconds nanosecond : Nat} {t : Time} :
    ofSecondOfDay? seconds nanosecond = some t ↔
      t.secondOfDay = seconds ∧ t.nanosecond = nanosecond := by
  obtain ⟨hhour, hminute, hsecond, -⟩ := t.exists_time
  rw [ofSecondOfDay?, of?_eq_some_iff, secondOfDay]
  omega

namespace DateTime

theorem ofTimestamp?_eq_some_iff {seconds : Int} {nanosecond : Nat} {t : DateTime} :
    ofTimestamp? seconds nanosecond = some t ↔
      t.timestamp = seconds ∧ t.time.nanosecond = nanosecond := by
  have hlt := t.time.secondOfDay_lt
  unfold ofTimestamp? timestamp
  constructor
  · intro h
    obtain ⟨date, hdate, h⟩ := Option.bind_eq_some_iff.mp h
    obtain ⟨time, htime, h⟩ := Option.bind_eq_some_iff.mp h
    cases h
    have hday := Date.ofDayNumber?_eq_some_iff.mp hdate
    obtain ⟨hsecond, hnanosecond⟩ := Time.ofSecondOfDay?_eq_some_iff.mp htime
    exact ⟨by simp only; omega, hnanosecond⟩
  · rintro ⟨hseconds, hnanosecond⟩
    have hdate : Date.ofDayNumber? (seconds / 86400) = some t.date :=
      Date.ofDayNumber?_eq_some_iff.mpr (by omega)
    have htime : Time.ofSecondOfDay? (seconds % 86400).toNat nanosecond = some t.time :=
      Time.ofSecondOfDay?_eq_some_iff.mpr ⟨by omega, hnanosecond⟩
    rw [hdate, Option.bind_eq_bind, Option.bind_some, htime]
    rfl

theorem eq_of_timestamp_eq {a b : DateTime} (h : a.timestamp = b.timestamp)
    (hnanosecond : a.time.nanosecond = b.time.nanosecond) : a = b :=
  Option.some.inj ((ofTimestamp?_eq_some_iff.mpr ⟨rfl, rfl⟩).symm.trans
    (ofTimestamp?_eq_some_iff.mpr ⟨h.symm, hnanosecond.symm⟩))

theorem addSeconds?_eq_some_iff {t u : DateTime} {seconds : Int} :
    t.addSeconds? seconds = some u ↔
      u.timestamp = t.timestamp + seconds ∧ u.time.nanosecond = t.time.nanosecond :=
  ofTimestamp?_eq_some_iff

theorem isBefore_iff {a b : DateTime} : a.isBefore b = true ↔
    a.timestamp < b.timestamp ∨
      a.timestamp = b.timestamp ∧ a.time.nanosecond < b.time.nanosecond := by
  simp [isBefore]

end DateTime

end Placeholder.Calendar
