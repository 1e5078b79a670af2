import Mathlib
import Placeholder.Proofs.DaysOfMonth
import Placeholder.Proofs.MonthlyWeekdays
import Placeholder.Temporal.Tree

/-!
# The occurrences of a weekday

In every month each of the first four occurrences of a weekday is one date, there is at most a fifth,
and one date is the last. A list of occurrences is tried in its order and no further than the first
match, so a number in it that is none is reported only on the dates that no earlier number matches.
-/

namespace Placeholder.Temporal

open Calendar

/-- The date is the occurrence of the weekday with this number, whatever the time of day. -/
def IsNth (day : String) (n : Int64) (d : Date) : Prop :=
  ∀ time, isNthWeekday day n ⟨d, time⟩ = .ok true

def IsLast (day : String) (d : Date) : Prop :=
  ∀ time, isLastWeekday day ⟨d, time⟩ = .ok true

theorem occurrenceOf_bounds (d : Date) : 1 ≤ occurrenceOf d ∧ occurrenceOf d ≤ 5 := by
  obtain ⟨-, -, hfirst, hlast, hpos, hlength⟩ := d.exists_date
  have hbound := (monthLength_bounds d.year hfirst hlast).2
  unfold occurrenceOf
  omega

section

variable {day : String} {weekday : Nat}

theorem isNth_iff (hday : weekdayNumber day = .ok weekday) {n : Int64}
    (hn : 1 ≤ n.toInt ∧ n.toInt ≤ 5) {d : Date} :
    IsNth day n d ↔ d.weekday = weekday ∧ (occurrenceOf d : Int) = n.toInt := by
  have hnumber : occurrenceOf d = n.toInt.toNat ↔ (occurrenceOf d : Int) = n.toInt := by omega
  have hvalue : ∀ t : DateTime, isNthWeekday day n t = .ok true ↔
      t.date.weekday = weekday ∧ occurrenceOf t.date = n.toInt.toNat := by
    intro t
    simp [Cron.isNthWeekday_eq hday hn]
  rw [← hnumber]
  exact ⟨fun h => (hvalue ⟨d, .midnight⟩).mp (h .midnight), fun h time => (hvalue ⟨d, time⟩).mpr h⟩

theorem isLastWeekday_eq (hday : weekdayNumber day = .ok weekday) (t : DateTime) :
    isLastWeekday day t = .ok (t.date.weekday == weekday && isLastOfMonth t.date) := by
  rw [isLastWeekday, isNthWeekday, hday, checkOccurrence, if_pos (Or.inl rfl), matchesOccurrence,
    if_pos rfl]
  rfl

theorem isLast_iff (hday : weekdayNumber day = .ok weekday) {d : Date} :
    IsLast day d ↔ d.weekday = weekday ∧ monthLength d.year d.month < d.day + 7 := by
  obtain ⟨hmin, hmax, hfirst, hlast, -, -⟩ := d.exists_date
  have hlength : isLastOfMonth d = true ↔ monthLength d.year d.month < d.day + 7 := by
    rw [isLastOfMonth, daysInMonth, if_pos ⟨hmin, hmax, hfirst, hlast⟩, decide_eq_true_eq]
  have hvalue : ∀ time, isLastWeekday day ⟨d, time⟩ = .ok true ↔
      d.weekday = weekday ∧ monthLength d.year d.month < d.day + 7 := by
    intro time
    rw [← hlength]
    simp [isLastWeekday_eq hday]
  exact ⟨fun h => (hvalue .midnight).mp (h .midnight), fun h time => (hvalue time).mpr h⟩

/-- A date on the weekday is its occurrence of one number. -/
theorem existsUnique_isNth (hday : weekdayNumber day = .ok weekday) {d : Date}
    (hd : d.weekday = weekday) : ∃! n : Int64, (1 ≤ n.toInt ∧ n.toInt ≤ 5) ∧ IsNth day n d := by
  have hbounds := occurrenceOf_bounds d
  have hcast : (Int64.ofInt (occurrenceOf d)).toInt = occurrenceOf d := by
    apply Int64.toInt_ofInt_of_le <;> omega
  refine ⟨Int64.ofInt (occurrenceOf d), ⟨by omega, ?_⟩, ?_⟩
  · exact (isNth_iff hday (by omega)).mpr ⟨hd, hcast.symm⟩
  · rintro n ⟨hn, hnth⟩
    have hnumber := ((isNth_iff hday hn).mp hnth).2
    exact Int64.toInt_inj.mp (hnumber.symm.trans hcast.symm)

end

/-! ### The dates of one month -/

section

variable {year : Int} {month weekday : Nat}

/-- Two dates of a month that are the same occurrence of one weekday are the same date. -/
theorem eq_of_occurrence_eq {d e : Date} (hd : InMonth year month d) (he : InMonth year month e)
    (hweekday : d.weekday = e.weekday) (hoccurrence : occurrenceOf d = occurrenceOf e) : d = e := by
  have hremainder := (Date.weekday_eq_iff hd he).mp hweekday
  refine Date.eq_of_day_eq hd he ?_
  unfold occurrenceOf at hoccurrence
  omega

/-- No date of a month on the same weekday lies behind the last one. -/
theorem day_le_of_last {d e : Date} (hd : InMonth year month d) (he : InMonth year month e)
    (hweekday : d.weekday = e.weekday) (hlast : monthLength year month < d.day + 7) :
    e.day ≤ d.day := by
  have hremainder := (Date.weekday_eq_iff hd he).mp hweekday
  have hlength := e.exists_date.2.2.2.2.2
  rw [he.1, he.2] at hlength
  omega

/-- The last date on a weekday is the fifth or the fourth, and the fifth where there is one. -/
theorem occurrenceOf_last {d : Date} (hd : InMonth year month d)
    (hlast : monthLength year month < d.day + 7) :
    (occurrenceOf d = 5 ∨ occurrenceOf d = 4) ∧ ∀ e, InMonth year month e →
      e.weekday = d.weekday → occurrenceOf e = 5 → occurrenceOf d = 5 := by
  obtain ⟨-, -, hfirst, hend, -, -⟩ := d.exists_date
  have hlength := (monthLength_bounds d.year hfirst hend).1
  rw [hd.1, hd.2] at hlength
  have hbound := (occurrenceOf_bounds d).2
  refine ⟨?_, ?_⟩
  · unfold occurrenceOf at hbound ⊢
    omega
  · intro e he hweekday hfifth
    have hle := day_le_of_last hd he hweekday.symm hlast
    unfold occurrenceOf at hfifth hbound ⊢
    omega

variable (hyear : minYear ≤ year ∧ year ≤ maxYear) (hmonth : 1 ≤ month ∧ month ≤ 12)
  (hweekday : weekday < 7)

include hyear hmonth hweekday

theorem exists_occurrence {n : Nat} (hn : 1 ≤ n ∧ n ≤ 4) :
    ∃ d, InMonth year month d ∧ d.weekday = weekday ∧ occurrenceOf d = n := by
  obtain ⟨r, hr, hremainder⟩ := exists_remainder hyear hmonth hweekday
  have hlength := (monthLength_bounds year hmonth.1 hmonth.2).1
  obtain ⟨d, hdyear, hdmonth, hday⟩ := Date.exists_of_day year month
    (7 * (n - 1) + (r + 6) % 7 + 1)
    ⟨hyear.1, hyear.2, hmonth.1, hmonth.2, by omega, by omega⟩
  refine ⟨d, ⟨hdyear, hdmonth⟩, (hremainder d ⟨hdyear, hdmonth⟩).mpr (by omega), ?_⟩
  unfold occurrenceOf
  omega

theorem exists_isLast :
    ∃ d, InMonth year month d ∧ d.weekday = weekday ∧ monthLength year month < d.day + 7 := by
  obtain ⟨r, hr, hremainder⟩ := exists_remainder hyear hmonth hweekday
  have hlength := (monthLength_bounds year hmonth.1 hmonth.2).1
  obtain ⟨d, hdyear, hdmonth, hday⟩ := Date.exists_of_day year month
    (monthLength year month - (monthLength year month + 7 - r) % 7)
    ⟨hyear.1, hyear.2, hmonth.1, hmonth.2, by omega, by omega⟩
  exact ⟨d, ⟨hdyear, hdmonth⟩, (hremainder d ⟨hdyear, hdmonth⟩).mpr (by omega), by omega⟩

end

section

variable {day : String} {weekday : Nat} (hday : weekdayNumber day = .ok weekday) {year : Int}
  {month : Nat} {d e : Date}

include hday

theorem isNth_five_iff : IsNth day 5 d ↔ d.weekday = weekday ∧ occurrenceOf d = 5 := by
  have hfive : 1 ≤ (5 : Int64).toInt ∧ (5 : Int64).toInt ≤ 5 := by decide
  rw [isNth_iff hday hfive]
  exact and_congr_right fun _ => Nat.cast_inj (n := 5)

theorem isLast_iff_of_inMonth (hd : InMonth year month d) :
    IsLast day d ↔ d.weekday = weekday ∧ monthLength year month < d.day + 7 := by
  rw [isLast_iff hday, hd.1, hd.2]

/-- No two dates of a month are the same occurrence of a weekday. -/
theorem eq_of_isNth {n : Int64} (hn : 1 ≤ n.toInt ∧ n.toInt ≤ 5) (hd : InMonth year month d)
    (he : InMonth year month e) (hdnth : IsNth day n d) (henth : IsNth day n e) : d = e := by
  obtain ⟨hdweekday, hdnumber⟩ := (isNth_iff hday hn).mp hdnth
  obtain ⟨heweekday, henumber⟩ := (isNth_iff hday hn).mp henth
  exact eq_of_occurrence_eq hd he (hdweekday.trans heweekday.symm) (by omega)

theorem existsUnique_date_isNth (hyear : minYear ≤ year ∧ year ≤ maxYear)
    (hmonth : 1 ≤ month ∧ month ≤ 12) {n : Int64} (hn : 1 ≤ n.toInt ∧ n.toInt ≤ 4) :
    ∃! d, InMonth year month d ∧ IsNth day n d := by
  have hfive : 1 ≤ n.toInt ∧ n.toInt ≤ 5 := by omega
  obtain ⟨d, hd, hdweekday, hnumber⟩ :=
    exists_occurrence hyear hmonth (weekdayNumber_lt hday) (n := n.toInt.toNat) (by omega)
  have hnth : IsNth day n d := (isNth_iff hday hfive).mpr ⟨hdweekday, by omega⟩
  exact ⟨d, ⟨hd, hnth⟩, fun e he => eq_of_isNth hday hfive he.1 hd he.2 hnth⟩

theorem existsUnique_isLast (hyear : minYear ≤ year ∧ year ≤ maxYear)
    (hmonth : 1 ≤ month ∧ month ≤ 12) : ∃! d, InMonth year month d ∧ IsLast day d := by
  obtain ⟨d, hd, hdweekday, hdlast⟩ := exists_isLast hyear hmonth (weekdayNumber_lt hday)
  refine ⟨d, ⟨hd, (isLast_iff_of_inMonth hday hd).mpr ⟨hdweekday, hdlast⟩⟩, ?_⟩
  rintro e ⟨he, helast⟩
  obtain ⟨heweekday, helast⟩ := (isLast_iff_of_inMonth hday he).mp helast
  have hsame := heweekday.trans hdweekday.symm
  exact Date.eq_of_day_eq he hd (le_antisymm (day_le_of_last hd he hsame.symm hdlast)
    (day_le_of_last he hd hsame helast))

/-- The last date on a weekday is the latest one, the fifth where there is a fifth and else the
fourth. -/
theorem isLast_spec (hd : InMonth year month d) (hlast : IsLast day d) : d.weekday = weekday ∧
    (∀ e, InMonth year month e → e.weekday = weekday → e.day ≤ d.day) ∧
    ((∃ e, InMonth year month e ∧ IsNth day 5 e) → IsNth day 5 d) ∧
    ((¬ ∃ e, InMonth year month e ∧ IsNth day 5 e) → IsNth day 4 d) := by
  obtain ⟨hdweekday, hdlast⟩ := (isLast_iff_of_inMonth hday hd).mp hlast
  obtain ⟨hnumber, hgreatest⟩ := occurrenceOf_last hd hdlast
  refine ⟨hdweekday, fun e he heweekday =>
    day_le_of_last hd he (hdweekday.trans heweekday.symm) hdlast, ?_, ?_⟩
  · rintro ⟨e, he, henth⟩
    obtain ⟨heweekday, henumber⟩ := (isNth_five_iff hday).mp henth
    exact (isNth_five_iff hday).mpr
      ⟨hdweekday, hgreatest e he (heweekday.trans hdweekday.symm) henumber⟩
  · intro hnone
    have hnot : occurrenceOf d ≠ 5 := fun heq =>
      hnone ⟨d, hd, (isNth_five_iff hday).mpr ⟨hdweekday, heq⟩⟩
    have hfour : 1 ≤ (4 : Int64).toInt ∧ (4 : Int64).toInt ≤ 5 := by decide
    refine (isNth_iff hday hfour).mpr ⟨hdweekday, ?_⟩
    rw [hnumber.resolve_left hnot]
    rfl

end

/-- In a month of the calendar, a date on the weekday is its `n`-th for one `n` from 1 to 5 and any
other date for none; each of the first four is one date and the fifth is at most one; one date is the
last, which is the latest one on the weekday: the fifth where there is one, and else the fourth. The
month has as many days as the Gregorian rule gives it and as stepping back from the next one
finds. -/
theorem weekdays_of_month {year : Int} (hyear : minYear ≤ year ∧ year ≤ maxYear) {month : Nat}
    (hmonth : 1 ≤ month ∧ month ≤ 12) {day : String} {weekday : Nat}
    (hday : weekdayNumber day = .ok weekday) :
    (∀ d, InMonth year month d → d.weekday = weekday →
      ∃! n : Int64, (1 ≤ n.toInt ∧ n.toInt ≤ 5) ∧ IsNth day n d) ∧
    (∀ d, InMonth year month d → d.weekday ≠ weekday →
      ∀ n : Int64, 1 ≤ n.toInt ∧ n.toInt ≤ 5 → ∀ time, isNthWeekday day n ⟨d, time⟩ = .ok false) ∧
    (∀ n : Int64, 1 ≤ n.toInt ∧ n.toInt ≤ 4 → ∃! d, InMonth year month d ∧ IsNth day n d) ∧
    (∀ d e, InMonth year month d → InMonth year month e → IsNth day 5 d → IsNth day 5 e → d = e) ∧
    (∃! d, InMonth year month d ∧ IsLast day d) ∧
    (∀ d, InMonth year month d → IsLast day d → d.weekday = weekday ∧
      (∀ e, InMonth year month e → e.weekday = weekday → e.day ≤ d.day) ∧
      ((∃ e, InMonth year month e ∧ IsNth day 5 e) → IsNth day 5 d) ∧
      ((¬ ∃ e, InMonth year month e ∧ IsNth day 5 e) → IsNth day 4 d)) ∧
    daysInMonth year month = gregorianLength year month ∧
    daysInMonth year month = ((dayBeforeNext? year month).map Date.day).getD 31 := by
  refine ⟨fun d _ hd => existsUnique_isNth hday hd, ?_,
    fun n hn => existsUnique_date_isNth hday hyear hmonth hn,
    fun d e hd he => eq_of_isNth hday (by decide) hd he, existsUnique_isLast hday hyear hmonth,
    fun d hd hlast => isLast_spec hday hd hlast, ?_, daysInMonth_eq_dayBeforeNext year month⟩
  · intro d _ hd n hn time
    rw [Cron.isNthWeekday_eq hday hn]
    simp [hd]
  · rw [daysInMonth, if_pos ⟨hyear.1, hyear.2, hmonth.1, hmonth.2⟩]
    exact monthLength_eq_gregorianLength year hmonth.1 hmonth.2

/-- The last month of the calendar, which no first of another month follows. -/
theorem weekdays_of_lastMonth :
    (minYear ≤ 262142 ∧ 262142 ≤ maxYear) ∧ (1 ≤ 12 ∧ 12 ≤ 12) ∧ weekdayNumber " sAT" = .ok 6 ∧
      (∃! d, InMonth 262142 12 d ∧ IsLast " sAT" d) ∧ daysInMonth 262142 12 = 31 := by
  have hday : weekdayNumber " sAT" = .ok 6 := by rfl
  have hyear : minYear ≤ 262142 ∧ 262142 ≤ maxYear := by decide
  have hmonth : 1 ≤ 12 ∧ 12 ≤ 12 := by decide
  obtain ⟨-, -, -, -, hlast, -, hlength, -⟩ := weekdays_of_month hyear hmonth hday
  exact ⟨hyear, hmonth, hday, hlast, hlength⟩

/-! ### Lists of occurrences -/

def IsOccurrence (n : Int64) : Prop :=
  n = -1 ∨ (1 ≤ n.toInt ∧ n.toInt ≤ 5)

instance (n : Int64) : Decidable (IsOccurrence n) := by
  unfold IsOccurrence
  infer_instance

/-- Two answers that fail with the same failures. -/
def FailAlike {ε α : Type} (r s : Except ε α) : Prop :=
  ∀ e, r = .error e ↔ s = .error e

/-- A number in front of the first one that is no occurrence matches. -/
def MatchesEarly (day : String) (ns : List Int64) (t : DateTime) : Prop :=
  ∃ n ∈ ns.takeWhile fun n => decide (IsOccurrence n), isNthWeekday day n t = .ok true

section

variable {day : String} {weekday : Nat} {t u : DateTime} {ns : List Int64}

theorem isNthWeekday_of_isOccurrence (hday : weekdayNumber day = .ok weekday) {n : Int64}
    (hn : IsOccurrence n) (t : DateTime) :
    isNthWeekday day n t = .ok (t.date.weekday == weekday && matchesOccurrence n t.date) := by
  have hcheck : checkOccurrence n = .ok () := if_pos hn
  rw [isNthWeekday, hday, hcheck]
  rfl

theorem isNthWeekday_of_not_isOccurrence (hday : weekdayNumber day = .ok weekday) {n : Int64}
    (hn : ¬ IsOccurrence n) (t : DateTime) :
    isNthWeekday day n t = .error (.invalidOccurrence n) := by
  have hcheck : checkOccurrence n = .error (.invalidOccurrence n) := if_neg hn
  rw [isNthWeekday, hday, hcheck]
  rfl

/-- A failure of a list: its first number that is none, unless one in front of it matches. -/
theorem isAnyNthWeekday_eq_error_iff (hday : weekdayNumber day = .ok weekday) {e : GrammarError} :
    isAnyNthWeekday day ns t = .error e ↔ ¬ MatchesEarly day ns t ∧
      ∃ n, (ns.dropWhile fun n => decide (IsOccurrence n)).head? = some n ∧
        e = .invalidOccurrence n := by
  induction ns with
  | nil => simp [isAnyNthWeekday, MatchesEarly]
  | cons n ns ih =>
    unfold MatchesEarly at ih ⊢
    by_cases hn : IsOccurrence n
    · have hvalue := isNthWeekday_of_isOccurrence hday hn t
      rw [isAnyNthWeekday, hvalue, List.takeWhile_cons_of_pos (by simpa using hn),
        List.dropWhile_cons_of_pos (by simpa using hn)]
      cases hmatch : t.date.weekday == weekday && matchesOccurrence n t.date with
      | true => simp [hvalue, hmatch, bind, Except.bind]
      | false =>
        rw [hmatch] at hvalue
        simpa [hvalue, bind, Except.bind] using ih
    · rw [isAnyNthWeekday, isNthWeekday_of_not_isOccurrence hday hn,
        List.takeWhile_cons_of_neg (by simpa using hn),
        List.dropWhile_cons_of_neg (by simpa using hn)]
      simp [bind, Except.bind, eq_comm]

theorem isAnyNthWeekday_of_invalidDay {e : GrammarError} (hday : weekdayNumber day = .error e)
    (hne : ns ≠ []) (t : DateTime) : isAnyNthWeekday day ns t = .error e := by
  obtain ⟨n, ns, rfl⟩ := List.exists_cons_of_ne_nil hne
  rw [isAnyNthWeekday, isNthWeekday, hday]
  rfl

/-- Where some number is no occurrence, the list fails alike exactly on dates that both have an early
match or both have none. -/
theorem failAlike_of_not_forall (hday : weekdayNumber day = .ok weekday)
    (hns : ¬ ∀ n ∈ ns, IsOccurrence n) :
    FailAlike (isAnyNthWeekday day ns t) (isAnyNthWeekday day ns u) ↔
      (MatchesEarly day ns t ↔ MatchesEarly day ns u) := by
  obtain ⟨n, hfirst⟩ : ∃ n, (ns.dropWhile fun n => decide (IsOccurrence n)).head? = some n := by
    cases hdrop : ns.dropWhile fun n => decide (IsOccurrence n) with
    | nil =>
      rw [List.dropWhile_eq_nil_iff] at hdrop
      exact absurd (fun n hn => of_decide_eq_true (hdrop n hn)) hns
    | cons n rest => exact ⟨n, rfl⟩
  unfold FailAlike
  simp only [isAnyNthWeekday_eq_error_iff hday, hfirst, Option.some.injEq]
  constructor
  · intro h
    have hn := h (.invalidOccurrence n)
    simpa [not_iff_not] using hn
  · intro h e
    rw [h]

theorem failAlike_of_forall (hday : weekdayNumber day = .ok weekday)
    (hns : ∀ n ∈ ns, IsOccurrence n) (t u : DateTime) :
    FailAlike (isAnyNthWeekday day ns t) (isAnyNthWeekday day ns u) := by
  have hdrop : (ns.dropWhile fun n => decide (IsOccurrence n)) = [] :=
    List.dropWhile_eq_nil_iff.mpr fun n hn => decide_eq_true (hns n hn)
  intro e
  simp [isAnyNthWeekday_eq_error_iff hday, hdrop]

/-- Seven dates of 2025, each the fifth of another weekday. -/
theorem exists_fifth (h : weekday < 7) : ∃ d : Date, d.weekday = weekday ∧ occurrenceOf d = 5 := by
  have htable : ∀ w < 7, ∃ d ∈ ([⟨2025, 1, 29, by decide⟩, ⟨2025, 1, 30, by decide⟩,
      ⟨2025, 1, 31, by decide⟩, ⟨2025, 3, 29, by decide⟩, ⟨2025, 3, 30, by decide⟩,
      ⟨2025, 3, 31, by decide⟩, ⟨2025, 4, 29, by decide⟩] : List Date),
      d.weekday = w ∧ occurrenceOf d = 5 := by decide
  obtain ⟨d, -, hd⟩ := htable weekday h
  exact ⟨d, hd⟩

theorem exists_match (hday : weekdayNumber day = .ok weekday) {n : Int64} (hn : IsOccurrence n) :
    ∃ t, isNthWeekday day n t = .ok true := by
  have hweekday := weekdayNumber_lt hday
  have hyear : minYear ≤ 2025 ∧ 2025 ≤ maxYear := by decide
  have hmonth : 1 ≤ 12 ∧ 12 ≤ 12 := by decide
  rcases hn with rfl | hn
  · obtain ⟨d, ⟨hdyear, hdmonth⟩, hd, hlast⟩ := exists_isLast hyear hmonth hweekday
    rw [← hdyear, ← hdmonth] at hlast
    exact ⟨⟨d, .midnight⟩, (isLast_iff hday).mpr ⟨hd, hlast⟩ .midnight⟩
  · by_cases hfifth : n.toInt = 5
    · obtain ⟨d, hd, hnumber⟩ := exists_fifth hweekday
      exact ⟨⟨d, .midnight⟩, (isNth_iff hday hn).mpr ⟨hd, by omega⟩ .midnight⟩
    · obtain ⟨d, -, hd, hnumber⟩ :=
        exists_occurrence hyear hmonth hweekday (n := n.toInt.toNat) (by omega)
      exact ⟨⟨d, .midnight⟩, (isNth_iff hday hn).mpr ⟨hd, by omega⟩ .midnight⟩

theorem exists_not_matchesEarly (hday : weekdayNumber day = .ok weekday) (ns : List Int64) :
    ∃ t, ¬ MatchesEarly day ns t := by
  obtain ⟨d, hd⟩ : ∃ d : Date, d.weekday ≠ weekday := by
    by_cases hsunday : weekday = 0
    · exact ⟨⟨2025, 12, 6, by decide⟩, by rw [hsunday]; decide⟩
    · exact ⟨⟨2025, 12, 7, by decide⟩, fun heq => hsunday (heq.symm.trans (by decide))⟩
  refine ⟨⟨d, .midnight⟩, ?_⟩
  rintro ⟨n, hmem, hmatch⟩
  have hn : IsOccurrence n := by simpa using List.mem_takeWhile_imp hmem
  rw [isNthWeekday_of_isOccurrence hday hn] at hmatch
  simp [hd] at hmatch

theorem failAlike_orMalformed {r s : Except GrammarError Bool} :
    FailAlike (Tree.orMalformed r) (Tree.orMalformed s) ↔ FailAlike r s := by
  have herror : ∀ r : Except GrammarError Bool, ∀ e,
      Tree.orMalformed r = .error (.grammar e) ↔ r = .error e := by
    rintro (e | b) e' <;> simp [Tree.orMalformed, Except.mapError]
  constructor
  · intro h e
    rw [← herror, h, herror]
  · intro h e
    constructor <;> intro he
    · obtain ⟨g, rfl⟩ : ∃ g, e = .grammar g := by
        cases r <;> simp [Tree.orMalformed, Except.mapError] at he
        exact ⟨_, he.symm⟩
      rwa [herror, ← h, ← herror]
    · obtain ⟨g, rfl⟩ : ∃ g, e = .grammar g := by
        cases s <;> simp [Tree.orMalformed, Except.mapError] at he
        exact ⟨_, he.symm⟩
      rwa [herror, h, ← herror]

end

theorem failAlike_pair_iff (day : String) (ns : List Int64) (t u : DateTime) :
    FailAlike (isAnyNthWeekday day ns t) (isAnyNthWeekday day ns u) ↔
      (∃ e, weekdayNumber day = .error e) ∨ (∀ n ∈ ns, IsOccurrence n) ∨
        (MatchesEarly day ns t ↔ MatchesEarly day ns u) := by
  cases hday : weekdayNumber day with
  | error e =>
    refine iff_of_true ?_ (Or.inl ⟨e, rfl⟩)
    by_cases hne : ns = []
    · rw [hne]
      exact fun _ => Iff.rfl
    · rw [isAnyNthWeekday_of_invalidDay hday hne, isAnyNthWeekday_of_invalidDay hday hne]
      exact fun _ => Iff.rfl
  | ok weekday =>
    by_cases hns : ∀ n ∈ ns, IsOccurrence n
    · exact iff_of_true (failAlike_of_forall hday hns t u) (Or.inr (Or.inl hns))
    · rw [failAlike_of_not_forall hday hns]
      simp [hns]

/-- A list that begins with an occurrence matches early on one date, and on another it does not. -/
theorem not_failAlike_of_head {day : String} {weekday : Nat} (hday : weekdayNumber day = .ok weekday)
    {n : Int64} {ns : List Int64} (hn : IsOccurrence n) (hns : ¬ ∀ m ∈ n :: ns, IsOccurrence m) :
    ∃ t u, ¬ FailAlike (isAnyNthWeekday day (n :: ns) t) (isAnyNthWeekday day (n :: ns) u) := by
  obtain ⟨t, ht⟩ := exists_match hday hn
  obtain ⟨u, hu⟩ := exists_not_matchesEarly hday (n :: ns)
  have hearly : MatchesEarly day (n :: ns) t := ⟨n, by simp [hn], ht⟩
  refine ⟨t, u, fun halike => hu ?_⟩
  exact ((failAlike_of_not_forall hday hns).mp halike).mp hearly

theorem forall_failAlike_iff (day : String) (ns : List Int64) :
    (∀ t u, FailAlike (isAnyNthWeekday day ns t) (isAnyNthWeekday day ns u)) ↔
      (∃ e, weekdayNumber day = .error e) ∨ (∀ n ∈ ns, IsOccurrence n) ∨
        ∃ n ∈ ns.head?, ¬ IsOccurrence n := by
  constructor
  · intro halike
    cases hday : weekdayNumber day with
    | error e => exact Or.inl ⟨e, rfl⟩
    | ok weekday =>
      by_cases hns : ∀ n ∈ ns, IsOccurrence n
      · exact Or.inr (Or.inl hns)
      · cases ns with
        | nil => exact absurd nofun hns
        | cons n rest =>
          refine Or.inr (Or.inr ⟨n, rfl, fun hn => ?_⟩)
          obtain ⟨t, u, hnot⟩ := not_failAlike_of_head hday hn hns
          exact hnot (halike t u)
  · rintro (hday | hns | ⟨n, hfirst, hn⟩) t u
    · exact (failAlike_pair_iff day ns t u).mpr (Or.inl hday)
    · exact (failAlike_pair_iff day ns t u).mpr (Or.inr (Or.inl hns))
    · obtain ⟨rest, rfl⟩ := List.head?_eq_some_iff.mp hfirst
      refine (failAlike_pair_iff day (n :: rest) t u).mpr (Or.inr (Or.inr ?_))
      simp [MatchesEarly, hn]

/-- A list of occurrences fails alike on two dates exactly when the name of the day is invalid, when
all numbers are occurrences, or when both dates or none of them match in front of the first number
that is none. So its failures do not depend on the date exactly when such a number, if there is one,
comes first. The failures of a condition in an expression are those of its list. -/
theorem failAlike_iff (day : String) (ns : List Int64) :
    (∀ t u, FailAlike (isAnyNthWeekday day ns t) (isAnyNthWeekday day ns u) ↔
      (∃ e, weekdayNumber day = .error e) ∨ (∀ n ∈ ns, IsOccurrence n) ∨
        (MatchesEarly day ns t ↔ MatchesEarly day ns u)) ∧
    ((∀ t u, FailAlike (isAnyNthWeekday day ns t) (isAnyNthWeekday day ns u)) ↔
      (∃ e, weekdayNumber day = .error e) ∨ (∀ n ∈ ns, IsOccurrence n) ∨
        ∃ n ∈ ns.head?, ¬ IsOccurrence n) ∧
    ∀ evaluators t u, FailAlike (Tree.holds evaluators t (.nthWeekday day ns))
      (Tree.holds evaluators u (.nthWeekday day ns)) ↔
        FailAlike (isAnyNthWeekday day ns t) (isAnyNthWeekday day ns u) := by
  refine ⟨failAlike_pair_iff day ns, forall_failAlike_iff day ns, fun evaluators t u => ?_⟩
  rw [Tree.holds, Tree.holds]
  exact failAlike_orMalformed

/-- The first Saturday of a month, and the day that follows it. -/
def firstSaturday : DateTime :=
  ⟨⟨2025, 11, 1, by decide⟩, .midnight⟩

def sundayAfter : DateTime :=
  ⟨⟨2025, 11, 2, by decide⟩, .midnight⟩

/-- On the first Saturday the list is not tried to its end; on the Sunday the nine is reported. -/
theorem not_failAlike_firstOrNinth :
    isAnyNthWeekday "saturday" [1, 9] firstSaturday = .ok true ∧
      isAnyNthWeekday "saturday" [1, 9] sundayAfter = .error (.invalidOccurrence 9) ∧
      ¬ FailAlike (isAnyNthWeekday "saturday" [1, 9] firstSaturday)
        (isAnyNthWeekday "saturday" [1, 9] sundayAfter) := by
  have hmatch : isAnyNthWeekday "saturday" [1, 9] firstSaturday = .ok true := by rfl
  have hfail : isAnyNthWeekday "saturday" [1, 9] sundayAfter =
      .error (.invalidOccurrence 9) := by rfl
  refine ⟨hmatch, hfail, fun halike => ?_⟩
  have hreported := (halike (.invalidOccurrence 9)).mpr hfail
  rw [hmatch] at hreported
  cases hreported

end Placeholder.Temporal
