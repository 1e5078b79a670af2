import Mathlib
import Placeholder.Proofs.CalendarOrder

/-!
# The days of a month

The last day of a month is the one before the first of the next month, and it is the one that the
Gregorian rule gives. The days of a month that fall on one weekday leave the same remainder modulo
seven.
-/

namespace Placeholder.Calendar

def gregorianLength (year : Int) (month : Nat) : Nat :=
  if month = 2 then if 4 ∣ year ∧ (¬ 100 ∣ year ∨ 400 ∣ year) then 29 else 28
  else if month ∈ [4, 6, 9, 11] then 30 else 31

theorem monthLength_eq_gregorianLength (year : Int) {month : Nat} (hfirst : 1 ≤ month)
    (hlast : month ≤ 12) : monthLength year month = gregorianLength year month := by
  have htable : ∀ leap : Bool, ∀ m < 12, (monthLengths leap).getD m 0 =
      if m + 1 = 2 then if leap = true then 29 else 28
      else if m + 1 ∈ [4, 6, 9, 11] then 30 else 31 := by decide
  have hleap : isLeapYear year = true ↔ 4 ∣ year ∧ (¬ 100 ∣ year ∨ 400 ∣ year) := by
    rw [isLeapYear_iff]
    omega
  have hmonth := htable (isLeapYear year) (month - 1) (by omega)
  rw [Nat.sub_add_cancel hfirst] at hmonth
  rw [monthLength, if_neg (by omega), hmonth, gregorianLength]
  simp only [hleap]

theorem monthLength_bounds (year : Int) {month : Nat} (hfirst : 1 ≤ month) (hlast : month ≤ 12) :
    28 ≤ monthLength year month ∧ monthLength year month ≤ 31 := by
  rw [monthLength_eq_gregorianLength year hfirst hlast]
  unfold gregorianLength
  split_ifs <;> omega

theorem daysBeforeMonth_succ (year : Int) {month : Nat} (hfirst : 1 ≤ month) (hlast : month < 12) :
    daysBeforeMonth year (month + 1) = daysBeforeMonth year month + monthLength year month := by
  have htable : ∀ leap : Bool, ∀ m < 11, ((monthLengths leap).take (m + 1)).foldr (· + ·) 0 =
      ((monthLengths leap).take m).foldr (· + ·) 0 + (monthLengths leap).getD m 0 := by decide
  have hmonth := htable (isLeapYear year) (month - 1) (by omega)
  rw [Nat.sub_add_cancel hfirst] at hmonth
  rw [daysBeforeMonth, daysBeforeMonth, monthLength, if_neg (by omega)]
  exact hmonth

theorem daysBeforeMonth_one (year : Int) : daysBeforeMonth year 1 = 0 := rfl

namespace Date

variable {d e : Date}

theorem exists_of_day (year : Int) (month day : Nat) (h : IsDate year month day) :
    ∃ d : Date, d.year = year ∧ d.month = month ∧ d.day = day :=
  ⟨⟨year, month, day, h⟩, rfl, rfl, rfl⟩

/-- Every day between two dates is a date. -/
theorem exists_dayNumber_eq {a b : Date} {n : Int} (ha : a.dayNumber ≤ n) (hb : n ≤ b.dayNumber) :
    ∃ date : Date, date.dayNumber = n := by
  obtain ⟨hnumber, hlt⟩ := daysBeforeYear_yearAndDay (n + epochDay)
  generalize (yearAndDay (n + epochDay)).1 = year at hnumber hlt
  generalize (yearAndDay (n + epochDay)).2 = rest at hnumber hlt
  unfold dayNumber at ha hb
  have hyear : a.year ≤ year ∧ year ≤ b.year := by
    constructor <;> by_contra hnot
    · have hbefore := daysBeforeYear_add_le (not_le.mp hnot)
      omega
    · have hbefore := daysBeforeYear_add_le (not_le.mp hnot)
      have hday := b.dayOfYear_lt
      omega
  have htotal : ∀ leap : Bool, (monthLengths leap).foldr (· + ·) 0 = if leap then 366 else 365 := by
    decide
  have hcount : ∀ leap : Bool, (monthLengths leap).length = 12 := by decide
  obtain ⟨index, day, hlength, hindex, hrest⟩ :=
    exists_monthAndDay (monthLengths (isLeapYear year)) (show rest < _ by rw [htotal]; exact hlt)
  rw [hcount] at hindex
  have hmin := a.exists_date.1
  have hmax := b.exists_date.2.1
  obtain ⟨date, hdate, hmonth, hday⟩ := exists_of_day year (index + 1) (day + 1)
    ⟨by omega, by omega, by omega, by omega, by omega, by
      rw [monthLength, if_neg (by omega), Nat.add_sub_cancel]
      exact hlength⟩
  refine ⟨date, ?_⟩
  rw [dayNumber, dayOfYear, hdate, hmonth, hday, daysBeforeMonth, Nat.add_sub_cancel,
    Nat.add_sub_cancel, ← hrest]
  omega

/-! ### The day before the first of a month -/

/-- The day before a new year is the last of December. -/
theorem eq_newYearsEve (hnext : d.dayNumber + 1 = e.dayNumber) (hmonth : e.month = 1)
    (hday : e.day = 1) : d.year < e.year ∧ d.month = 12 ∧ d.day = 31 := by
  have hstart : e.dayNumber = daysBeforeYear e.year - epochDay := by
    unfold dayNumber dayOfYear
    rw [hmonth, hday, daysBeforeMonth_one]
    omega
  have hyear : d.year < e.year := by
    by_contra hlater
    have hbefore : daysBeforeYear e.year ≤ daysBeforeYear d.year := by
      rcases Int.lt_or_eq_of_le (not_lt.mp hlater) with hlt | heq
      · have hadd := daysBeforeYear_add_le hlt
        omega
      · rw [heq]
    unfold dayNumber at hnext hstart
    omega
  obtain ⟨-, -, hfirst, hlast, hpos, hlength⟩ := d.exists_date
  have hadd := daysBeforeYear_add_le hyear
  have hbound := daysBeforeMonth_add_le_yearLength d.year hfirst hlast
  -- The last day of the year closes its month, and only December reaches the end of the year.
  have hend : daysBeforeMonth d.year d.month + d.day = yearLength d.year := by
    unfold dayNumber dayOfYear at hnext hstart
    omega
  have hdecember : d.month = 12 := by
    by_contra hearlier
    have hnextMonth := daysBeforeMonth_add_le d.year hfirst (show d.month < 12 by omega) le_rfl
    have hlast' := daysBeforeMonth_add_le_yearLength d.year (show 1 ≤ 12 by omega) le_rfl
    have hpositive := (monthLength_bounds d.year (show 1 ≤ 12 by omega) le_rfl).1
    omega
  have hdays : monthLength d.year 12 = 31 :=
    monthLength_eq_gregorianLength d.year (by omega) le_rfl
  rw [hdecember] at hbound hlength hend
  refine ⟨hyear, hdecember, ?_⟩
  omega

theorem dayNumber_add_one_of_last (hyear : e.year = d.year) (hmonth : e.month = d.month + 1)
    (hday : e.day = 1) (hlast : d.day = monthLength d.year d.month) :
    d.dayNumber + 1 = e.dayNumber := by
  obtain ⟨-, -, hfirst, -, hpos, -⟩ := d.exists_date
  obtain ⟨-, -, -, hbound, -, -⟩ := e.exists_date
  have hstart := daysBeforeMonth_succ d.year hfirst (by omega)
  unfold dayNumber dayOfYear
  rw [hyear, hmonth, hday, hstart]
  omega

end Date

def nextMonth? (year : Int) (month : Nat) : Option Date :=
  if month = 12 then Date.of? (year + 1) 1 1 else Date.of? year (month + 1) 1

/-- The day before the first of the month that follows. -/
def dayBeforeNext? (year : Int) (month : Nat) : Option Date :=
  (nextMonth? year month).bind fun first => Date.ofDayNumber? (first.dayNumber - 1)

theorem exists_of_dayBeforeNext? {year : Int} {month : Nat} {d : Date}
    (h : dayBeforeNext? year month = some d) : ∃ e : Date, e.day = 1 ∧
      d.dayNumber + 1 = e.dayNumber ∧
      if month = 12 then e.year = year + 1 ∧ e.month = 1 else e.year = year ∧ e.month = month + 1 := by
  obtain ⟨e, hfirst, hbefore⟩ := Option.bind_eq_some_iff.mp h
  unfold nextMonth? at hfirst
  have hnumber := Date.ofDayNumber?_eq_some_iff.mp hbefore
  refine ⟨e, ?_⟩
  split at hfirst
  · rename_i hmonth
    obtain ⟨hyear, hjanuary, hday⟩ := Date.of?_eq_some_iff.mp hfirst
    rw [if_pos hmonth]
    exact ⟨hday, by omega, hyear, hjanuary⟩
  · rename_i hmonth
    obtain ⟨hyear, hnext, hday⟩ := Date.of?_eq_some_iff.mp hfirst
    rw [if_neg hmonth]
    exact ⟨hday, by omega, hyear, hnext⟩

/-- Within a year the first of the next month exists, and the last of this one is before it. -/
theorem exists_dayBeforeNext {year : Int} (hyear : minYear ≤ year ∧ year ≤ maxYear) {month : Nat}
    (hfirst : 1 ≤ month) (hlast : month < 12) :
    ∃ d, dayBeforeNext? year month = some d ∧ d.day = monthLength year month := by
  have hbounds := (monthLength_bounds year hfirst hlast.le).1
  have hbounds' := (monthLength_bounds year (show 1 ≤ month + 1 by omega) hlast).1
  obtain ⟨d, hdyear, hdmonth, hday⟩ := Date.exists_of_day year month (monthLength year month)
    ⟨hyear.1, hyear.2, hfirst, hlast.le, by omega, le_rfl⟩
  obtain ⟨e, heyear, hemonth, hone⟩ := Date.exists_of_day year (month + 1) 1
    ⟨hyear.1, hyear.2, by omega, hlast, le_rfl, by omega⟩
  have hnext := Date.dayNumber_add_one_of_last (d := d) (e := e) (by omega) (by omega) hone
    (by rw [hday, hdyear, hdmonth])
  have hstart : nextMonth? year month = some e := by
    rw [nextMonth?, if_neg (by omega)]
    exact Date.of?_eq_some_iff.mpr ⟨heyear, hemonth, hone⟩
  refine ⟨d, ?_, hday⟩
  rw [dayBeforeNext?, hstart, Option.bind_some]
  exact Date.ofDayNumber?_eq_some_iff.mpr (by omega)

/-- The length of a month is found by stepping back from the first of the next month, and it is 31
where that leads out of the calendar. -/
theorem daysInMonth_eq_dayBeforeNext (year : Int) (month : Nat) :
    daysInMonth year month = ((dayBeforeNext? year month).map Date.day).getD 31 := by
  by_cases hinner : (minYear ≤ year ∧ year ≤ maxYear) ∧ 1 ≤ month ∧ month < 12
  · obtain ⟨hyear, hfirst, hlast⟩ := hinner
    obtain ⟨d, hbefore, hday⟩ := exists_dayBeforeNext hyear hfirst hlast
    rw [hbefore, Option.map_some, Option.getD_some, hday, daysInMonth,
      if_pos ⟨hyear.1, hyear.2, hfirst, hlast.le⟩]
  · have hdays : daysInMonth year month = 31 := by
      unfold daysInMonth
      split
      · obtain rfl : month = 12 := by omega
        exact monthLength_eq_gregorianLength year (by omega) le_rfl
      · rfl
    rw [hdays]
    cases hbefore : dayBeforeNext? year month with
    | none => rfl
    | some d =>
      obtain ⟨e, hday, hnext, hwhich⟩ := exists_of_dayBeforeNext? hbefore
      obtain ⟨hmin, hmax, -, hbound, -, -⟩ := e.exists_date
      -- What is left is the step back over a new year.
      have hjanuary : e.month = 1 := by
        split at hwhich <;> omega
      exact (Date.eq_newYearsEve hnext hjanuary hday).2.2.symm

/-! ### Weekdays -/

def InMonth (year : Int) (month : Nat) (d : Date) : Prop :=
  d.year = year ∧ d.month = month

namespace Date

variable {year : Int} {month : Nat} {d e : Date}

theorem dayNumber_sub (hd : InMonth year month d) (he : InMonth year month e) :
    d.dayNumber - e.dayNumber = d.day - e.day := by
  have hpos := d.exists_date.2.2.2.2.1
  have hpos' := e.exists_date.2.2.2.2.1
  unfold dayNumber dayOfYear
  rw [hd.1, hd.2, he.1, he.2]
  omega

theorem weekday_eq_iff (hd : InMonth year month d) (he : InMonth year month e) :
    d.weekday = e.weekday ↔ d.day % 7 = e.day % 7 := by
  have hsub := dayNumber_sub hd he
  unfold weekday
  omega

theorem eq_of_day_eq (hd : InMonth year month d) (he : InMonth year month e)
    (hday : d.day = e.day) : d = e :=
  eq_of_digits (hd.1.trans he.1.symm) (hd.2.trans he.2.symm) hday

end Date

/-- The days of a month on one weekday are those that leave one remainder modulo seven. -/
theorem exists_remainder {year : Int} (hyear : minYear ≤ year ∧ year ≤ maxYear) {month : Nat}
    (hmonth : 1 ≤ month ∧ month ≤ 12) {weekday : Nat} (hweekday : weekday < 7) :
    ∃ r < 7, ∀ d, InMonth year month d → (d.weekday = weekday ↔ d.day % 7 = r) := by
  have hlength := (monthLength_bounds year hmonth.1 hmonth.2).1
  obtain ⟨e, hyear', hmonth', hday⟩ := Date.exists_of_day year month 1
    ⟨hyear.1, hyear.2, hmonth.1, hmonth.2, le_rfl, by omega⟩
  refine ⟨(weekday + 8 - e.weekday) % 7, Nat.mod_lt _ (by omega), fun d hd => ?_⟩
  have hsub := Date.dayNumber_sub hd ⟨hyear', hmonth'⟩
  unfold Date.weekday
  omega

end Placeholder.Calendar
