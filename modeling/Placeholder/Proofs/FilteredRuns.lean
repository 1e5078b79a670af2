import Mathlib
import Placeholder.Proofs.BoundedSearch
import Placeholder.Proofs.DaysOfMonth
import Placeholder.Proofs.ScheduleFields
import Placeholder.Proofs.WeekdayOccurrences

/-!
# The runs of an expression with an occurrence

A pattern with an occurrence looks for its next run among a limited number of instants of its
schedule. So the next run is the first due minute exactly when the pattern that is due then has
fewer instants than the limit in front of it; otherwise the minute stays hidden.
-/

namespace Placeholder.Temporal.Cron

open Calendar

section

variable {α : Type} {d : Direction} {key : α → Int} {P : α → Prop}

/-- Among values beyond a bound there is a nearest one. -/
theorem exists_isNearest {b : Int} (hbound : ∀ a, P a → d.Lt b (key a)) (hexists : ∃ a, P a) :
    ∃ a, IsNearest d key P (some a) := by
  obtain ⟨a₀, ha₀⟩ := hexists
  cases d with
  | forward =>
    obtain ⟨_, ⟨a, ha, rfl⟩, hleast⟩ := Int.exists_least_of_bdd (P := fun n => ∃ a, P a ∧ key a = n)
      ⟨b, by rintro _ ⟨a, ha, rfl⟩; exact (hbound a ha).le⟩ ⟨_, a₀, ha₀, rfl⟩
    exact ⟨a, ha, fun c hc => not_lt.mpr (hleast _ ⟨c, hc, rfl⟩)⟩
  | backward =>
    obtain ⟨_, ⟨a, ha, rfl⟩, hgreatest⟩ :=
      Int.exists_greatest_of_bdd (P := fun n => ∃ a, P a ∧ key a = n)
        ⟨b, by rintro _ ⟨a, ha, rfl⟩; exact (hbound a ha).le⟩ ⟨_, a₀, ha₀, rfl⟩
    exact ⟨a, ha, fun c hc => not_lt.mpr (hgreatest _ ⟨c, hc, rfl⟩)⟩

end

/-! ### Searches within the supported years -/

namespace Schedule

variable {s : Schedule} {d : Direction} {steady : Bool} {t u : DateTime}

/-- An instant of the years that a schedule can name. -/
def InYears (t : DateTime) : Prop :=
  TimeUnit.year.least ≤ t.date.year ∧ t.date.year ≤ TimeUnit.year.greatest

/-- From every instant of these years the search finds the nearest instant of the schedule. -/
def EnumeratesYears (s : Schedule) (d : Direction) : Prop :=
  ∀ t, InYears t → s.Enumerates d t

theorem hasBeyond_iff : s.HasBeyond d t u ↔ s.HasFrom d (t.timestamp + d.step) u := by
  have hbound : d.Lt t.timestamp u.timestamp ↔ ¬ d.Lt u.timestamp (t.timestamp + d.step) := by
    cases d <;> simp only [Direction.Lt, Direction.step] <;> omega
  unfold HasBeyond HasFrom
  rw [hbound]

theorem searchesFrom_of_enumerates (h : s.Enumerates d t) :
    s.SearchesFrom d (t.timestamp + d.step) (t.addSeconds? d.step) :=
  IsNearest.congr h fun _ => hasBeyond_iff

theorem inYears_of_includes (hs : s.IsRead steady) (ht : s.includes t = true) : InYears t := by
  obtain ⟨hyear, hmem, -⟩ := (includes_iff t).mp ht
  obtain ⟨hleast, hgreatest⟩ := hs.year_bounds _ hmem
  unfold InYears
  omega

theorem searchesFrom_afterDate (hs : s.IsRead steady) (henum : s.EnumeratesYears d)
    (ht : s.includes t = true) :
    s.SearchesFrom d (d.secondAfterDate t.date) (d.afterDate? t.date) := by
  obtain ⟨hdate, hsecond, hafter⟩ := d.endOfDate_spec t.date
  have hyears : InYears (d.endOfDate t.date) := by
    unfold InYears
    rw [hdate]
    exact inYears_of_includes hs ht
  rw [← hsecond, ← hafter]
  exact searchesFrom_of_enumerates (henum _ hyears)

/-- The second before or after an instant of these years is an instant. -/
theorem exists_addSeconds? (d : Direction) (ht : InYears t) :
    ∃ q, t.addSeconds? d.step = some q := by
  obtain ⟨hleast, hgreatest⟩ := ht
  have hbefore : (⟨1969, 12, 31, by decide⟩ : Date).Before t.date := Or.inl hleast
  have hafter : t.date.Before ⟨2101, 1, 1, by decide⟩ := Or.inl (Int.lt_add_one_of_le hgreatest)
  have hlower := Date.dayNumber_lt hbefore
  have hupper := Date.dayNumber_lt hafter
  have hsecond := t.time.secondOfDay_lt
  have hstep : -1 ≤ d.step ∧ d.step ≤ 1 := by cases d <;> decide
  obtain ⟨date, hdate⟩ := Date.exists_dayNumber_eq
    (n := (t.timestamp + d.step) / 86400) (a := ⟨1969, 12, 31, by decide⟩)
    (b := ⟨2101, 1, 1, by decide⟩) (by unfold DateTime.timestamp; omega)
    (by unfold DateTime.timestamp; omega)
  have hrest := Int.emod_nonneg (t.timestamp + d.step) (show (86400 : Int) ≠ 0 by decide)
  obtain ⟨rest, hrest⟩ := Int.eq_ofNat_of_zero_le hrest
  have hlt := Int.emod_lt_of_pos (t.timestamp + d.step) (show (0 : Int) < 86400 by decide)
  refine ⟨⟨date, ⟨rest / 3600, rest / 60 % 60, rest % 60, t.time.nanosecond, by omega, by omega,
    by omega, t.time.exists_time.2.2.2⟩⟩, DateTime.addSeconds?_eq_some_iff.mpr ⟨?_, rfl⟩⟩
  simp only [DateTime.timestamp, Time.secondOfDay, hdate] at hrest ⊢
  omega

theorem enumeratesYears_of_all (hs : s.Ascending) (hyears : s.years = TimeUnit.year.values)
    (d : Direction) : s.EnumeratesYears d := by
  intro t ht
  obtain ⟨q, hq⟩ := exists_addSeconds? d ht
  refine enumerates_of_supports hs hq ?_
  have hlater : ¬ d.Lt q.timestamp t.timestamp := by
    have hstep := (DateTime.addSeconds?_eq_some_iff.mp hq).1
    cases d <;> simp only [Direction.Lt, Direction.step] at hstep ⊢ <;> omega
  have hyear : ¬ d.Lt q.date.year t.date.year := fun hlt =>
    hlater (Direction.lt_timestamp (Or.inl hlt))
  have hvalues : ∀ y, y ∈ s.years ↔ TimeUnit.year.least ≤ y ∧ y ≤ TimeUnit.year.greatest := by
    intro y
    rw [hyears]
    exact mem_values
  unfold Supports
  simp only [hvalues]
  obtain ⟨hleast, hgreatest⟩ := ht
  by_cases hin : InYears q
  · exact Or.inl ⟨q.date.year.toNat, by unfold InYears at hin; omega, by unfold InYears at hin; omega⟩
  · refine Or.inr fun y hy => ?_
    unfold InYears at hin
    cases d <;> simp only [Direction.Lt] at hyear ⊢ <;> omega

end Schedule

/-! ### The runs of a pattern -/

/-- The instants of the schedule between `t` and `u`. -/
def Schedule.between (s : Schedule) (d : Direction) (t u : DateTime) : Set DateTime :=
  {v | s.HasBeyond d t v ∧ d.Lt v.timestamp u.timestamp}

theorem Schedule.between_eq (s : Schedule) (d : Direction) (t u : DateTime) :
    s.between d t u = s.instants d (t.timestamp + d.step) u.timestamp := by
  ext v
  simp only [between, instants, Set.mem_ofPred_eq, hasBeyond_iff]

theorem Schedule.ncard_between_le (s : Schedule) {d : Direction} {t u v : DateTime}
    (h : ¬ d.Lt v.timestamp u.timestamp) : (s.between d t u).ncard ≤ (s.between d t v).ncard := by
  rw [s.between_eq d t v]
  refine Set.ncard_le_ncard (fun w hw => ⟨hasBeyond_iff.mp hw.1, ?_⟩) (s.finite_instants ..)
  have hlt := hw.2
  cases d <;> simp only [Direction.Lt] at h hlt ⊢ <;> omega

namespace Pattern

variable {p : Pattern} {d : Direction} {steady : Bool} {t u : DateTime}

/-- An instant beyond `t` at which the pattern is due, inside its minute or at its beginning. -/
def HasRun (p : Pattern) (d : Direction) (t u : DateTime) : Prop :=
  p.schedule.HasBeyond d t u ∧ p.acceptsDate u.date = true

theorem HasRun.isDue (h : p.HasRun d t u) : p.isDue u = true := by
  rw [Pattern.isDue, h.1.1, h.2]
  rfl

/-- The run of a pattern is the nearest instant at which it is due, as long as fewer instants of
its schedule than the limit lie in front of it. -/
theorem run?_eq_some_iff (hs : p.schedule.IsRead steady)
    (henum : p.schedule.EnumeratesYears d) (ht : Schedule.InYears t) :
    p.run? d t = some u ↔ IsNearest d DateTime.timestamp (p.HasRun d t) (some u) ∧
      (p.schedule.between d t u).ncard < scanLimit := by
  have hrun : p.run? d t =
      (t.addSeconds? d.step).bind (p.schedule.where? d p.acceptsDate scanLimit scanLimit) := by
    cases d <;> rfl
  have hiff : ∀ v, p.schedule.Accepted d p.acceptsDate (t.timestamp + d.step) v ↔
      p.HasRun d t v := fun v => and_congr_left' Schedule.hasBeyond_iff.symm
  rw [hrun, Schedule.where?_eq_some_iff hs (fun v hv => Schedule.searchesFrom_afterDate hs henum hv)
    le_rfl (Schedule.searchesFrom_of_enumerates (henum t ht)), Schedule.between_eq]
  exact and_congr_left' ⟨fun h => h.congr hiff, fun h => h.congr fun v => (hiff v).symm⟩

/-- A pattern that is due beyond `t`, with few enough instants in front of it, has a run. -/
theorem exists_run (hs : p.schedule.IsRead steady) (henum : p.schedule.EnumeratesYears d)
    (ht : Schedule.InYears t) (hu : p.HasRun d t u)
    (hcount : (p.schedule.between d t u).ncard < scanLimit) :
    ∃ v, p.run? d t = some v ∧ ¬ d.Lt u.timestamp v.timestamp := by
  obtain ⟨v, hv⟩ : ∃ v, IsNearest d DateTime.timestamp (p.HasRun d t) (some v) :=
    exists_isNearest (fun w hw => hw.1.2.2) ⟨u, hu⟩
  have hnot := hv.2 u hu
  have hfewer := p.schedule.ncard_between_le (t := t) hnot
  exact ⟨v, (run?_eq_some_iff hs henum ht).mpr ⟨hv, hfewer.trans_lt hcount⟩, hnot⟩

end Pattern

/-! ### The runs of an expression -/

/-- Some pattern that is due in the minute `m` has fewer instants between the minute of `t` and `m`
than a search goes through. -/
def Reaches (c : Cron) (d : Direction) (t m : DateTime) : Prop :=
  ∃ p ∈ c.patterns, p.isDue m = true ∧ (p.schedule.between d t.toMinute m).ncard < scanLimit

section

variable {c : Cron} {d : Direction} {steady : Bool} {t m u : DateTime}

theorem dueBeyond_iff_hasRun : c.DueBeyond d t m ↔
    m.toMinute = m ∧ ∃ p ∈ c.patterns, p.HasRun d t.toMinute m := by
  unfold DueBeyond
  rw [isDue, List.any_eq_true]
  constructor
  · rintro ⟨hwhole, ⟨p, hp, hdue⟩, hlt⟩
    rw [hwhole, Pattern.isDue, Bool.and_eq_true] at hdue
    exact ⟨hwhole, p, hp, ⟨hdue.1, DateTime.nanosecond_of_toMinute_eq hwhole, hlt⟩, hdue.2⟩
  · rintro ⟨hwhole, p, hp, hrun⟩
    exact ⟨hwhole, ⟨p, hp, by rw [hwhole]; exact hrun.isDue⟩, hrun.1.2.2⟩

theorem reaches_iff (hm : c.DueBeyond d t m) : c.Reaches d t m ↔
    ∃ p ∈ c.patterns, p.HasRun d t.toMinute m ∧
      (p.schedule.between d t.toMinute m).ncard < scanLimit := by
  obtain ⟨hwhole, -, hlt⟩ := hm
  unfold Reaches
  refine exists_congr fun p => and_congr_right fun _ => and_congr_left' ⟨fun hdue => ?_, ?_⟩
  · rw [Pattern.isDue, Bool.and_eq_true] at hdue
    exact ⟨⟨hdue.1, DateTime.nanosecond_of_toMinute_eq hwhole, hlt⟩, hdue.2⟩
  · exact Pattern.HasRun.isDue

/-- The run of an expression is the nearest of the runs of its patterns. -/
theorem isNearest_runs (c : Cron) (d : Direction) (t : DateTime) :
    IsNearest d DateTime.timestamp (fun u => ∃ p ∈ c.patterns, p.run? d t.toMinute = some u)
      (c.run? d t) := by
  have heq : c.run? d t = choose? d.better (c.patterns.filterMap fun p => p.run? d t.toMinute) := by
    cases d <;> rfl
  rw [heq]
  exact isNearest_choose?_filterMap fun p _ => isNearest_of_iff fun _ => Iff.rfl

theorem hasRun_of_run? (hread : ∀ p ∈ c.patterns, p.schedule.IsRead steady)
    (henum : ∀ p ∈ c.patterns, p.schedule.EnumeratesYears d) (ht : Schedule.InYears t)
    (hu : c.run? d t = some u) : ∃ p ∈ c.patterns, p.HasRun d t.toMinute u ∧
      (p.schedule.between d t.toMinute u).ncard < scanLimit := by
  have hminute : Schedule.InYears t.toMinute := ht
  have hruns := isNearest_runs c d t
  rw [hu] at hruns
  obtain ⟨p, hp, hrun⟩ := hruns.1
  obtain ⟨hnearest, hcount⟩ := (Pattern.run?_eq_some_iff (hread p hp) (henum p hp) hminute).mp hrun
  exact ⟨p, hp, hnearest.1, hcount⟩

/-- Where a minute is reached, there is a run at least as near. -/
theorem exists_run_of_reaches (hread : ∀ p ∈ c.patterns, p.schedule.IsRead steady)
    (henum : ∀ p ∈ c.patterns, p.schedule.EnumeratesYears d) (ht : Schedule.InYears t)
    (hm : c.DueBeyond d t m) (hreaches : c.Reaches d t m) :
    ∃ v, (∃ p ∈ c.patterns, p.run? d t.toMinute = some v) ∧ ¬ d.Lt m.timestamp v.timestamp := by
  have hminute : Schedule.InYears t.toMinute := ht
  obtain ⟨p, hp, hrun, hcount⟩ := (reaches_iff hm).mp hreaches
  obtain ⟨v, hv, hnot⟩ := Pattern.exists_run (hread p hp) (henum p hp) hminute hrun hcount
  exact ⟨v, ⟨p, hp, hv⟩, hnot⟩

theorem exists_isNearest_dueBeyond (hm : c.DueBeyond d t m) :
    ∃ m, IsNearest d DateTime.timestamp (c.DueBeyond d t) (some m) :=
  exists_isNearest (fun _ hm => hm.2.2) ⟨m, hm⟩

theorem runAgrees_iff_forall_reaches (hread : ∀ p ∈ c.patterns, p.schedule.IsRead steady)
    (henum : ∀ p ∈ c.patterns, p.schedule.EnumeratesYears d) (ht : Schedule.InYears t)
    (hwhole : ∀ u, c.run? d t = some u → u.toMinute = u) :
    c.RunAgrees d t ↔
      ∀ m, IsNearest d DateTime.timestamp (c.DueBeyond d t) (some m) → c.Reaches d t m := by
  have hruns := isNearest_runs c d t
  unfold RunAgrees
  constructor
  · intro hagrees m hm
    cases hu : c.run? d t with
    | none =>
      rw [hu] at hagrees
      exact absurd hm.1 (hagrees m)
    | some u =>
      rw [hu] at hagrees
      have heq := Schedule.eq_of_isNearest
        (fun v hv => DateTime.nanosecond_of_toMinute_eq hv.1) hagrees hm
      rw [reaches_iff hm.1, ← heq]
      exact hasRun_of_run? hread henum ht hu
  · intro hreaches
    cases hu : c.run? d t with
    | none =>
      rw [hu] at hruns
      intro m hm
      obtain ⟨m₀, hm₀⟩ := exists_isNearest_dueBeyond hm
      obtain ⟨v, hv, -⟩ := exists_run_of_reaches hread henum ht hm₀.1 (hreaches m₀ hm₀)
      exact hruns v hv
    | some u =>
      rw [hu] at hruns
      obtain ⟨p, hp, hrun, -⟩ := hasRun_of_run? hread henum ht hu
      refine ⟨dueBeyond_iff_hasRun.mpr ⟨hwhole u hu, p, hp, hrun⟩, fun m hm => ?_⟩
      obtain ⟨m₀, hm₀⟩ := exists_isNearest_dueBeyond hm
      obtain ⟨v, hv, hnot⟩ := exists_run_of_reaches hread henum ht hm₀.1 (hreaches m₀ hm₀)
      exact Direction.not_lt_trans (Direction.not_lt_trans (hm₀.2 m hm) hnot) (hruns.2 v hv)

end

/-! ### Occurrences that every month has -/

def SameMonth (a b : DateTime) : Prop :=
  a.date.year = b.date.year ∧ a.date.month = b.date.month

instance (a b : DateTime) : Decidable (SameMonth a b) :=
  inferInstanceAs (Decidable (_ ∧ _))

/-- Instants of different months are in the order of their months. -/
theorem lt_timestamp_iff_month {d : Direction} {t u : DateTime} (h : ¬ SameMonth t u) :
    d.Lt t.timestamp u.timestamp ↔ d.Lt t.date.year u.date.year ∨
      t.date.year = u.date.year ∧ d.Lt t.date.month u.date.month := by
  constructor
  · intro hlt
    rcases Direction.not_lt_timestamp.mp hlt.asymm with hyear | ⟨hyear, hmonth | ⟨hmonth, -⟩⟩
    · exact Or.inl hyear
    · exact Or.inr ⟨hyear.symm, hmonth⟩
    · exact absurd ⟨hyear.symm, hmonth.symm⟩ h
  · rintro (hyear | ⟨hyear, hmonth⟩)
    · exact Direction.lt_timestamp (Or.inl hyear)
    · exact Direction.lt_timestamp (Or.inr ⟨hyear, Or.inl hmonth⟩)

namespace Pattern

variable {p : Pattern} {steady : Bool}

/-- In every month in which the schedule has an instant, the pattern is due at that time of day. -/
def RunsMonthly (p : Pattern) : Prop :=
  ∀ v, p.schedule.includes v = true → ∃ date, p.isDue ⟨date, v.time⟩ = true ∧
    SameMonth ⟨date, v.time⟩ v

theorem isDue_of_date {v : DateTime} (hv : p.schedule.includes v = true) {date : Date}
    (hyear : date.year = v.date.year) (hmonth : date.month = v.date.month)
    (hday : date.day ∈ p.schedule.days) (hweekday : p.schedule.hasWeekday date = true)
    (haccepts : p.acceptsDate date = true) : p.isDue ⟨date, v.time⟩ = true := by
  obtain ⟨hvyear, hyears, hmonths, -, -, htime⟩ := (Schedule.includes_iff v).mp hv
  rw [isDue, haccepts, Bool.and_true, Schedule.includes_iff]
  dsimp only
  rw [hyear, hmonth]
  exact ⟨hvyear, hyears, hmonths, hday, hweekday, htime⟩

theorem acceptsDate_iff {n : Nat} (hp : p.occurrence = some n) (date : Date) :
    p.acceptsDate date = true ↔ occurrenceOf date = n := by
  rw [acceptsDate, hp]
  simp

/-- Each of the first four occurrences of a weekday is on some day of every month. -/
theorem runsMonthly_of_days {n : Nat} (hp : p.occurrence = some n) (hn : 1 ≤ n ∧ n ≤ 4)
    (hdays : p.schedule.days = TimeUnit.day.values) : p.RunsMonthly := by
  intro v hv
  obtain ⟨hmin, hmax, hfirst, hlast, -, -⟩ := v.date.exists_date
  obtain ⟨-, -, -, -, hweekday, -⟩ := (Schedule.includes_iff v).mp hv
  obtain ⟨date, ⟨hyear, hmonth⟩, hsame, hnumber⟩ :=
    exists_occurrence ⟨hmin, hmax⟩ ⟨hfirst, hlast⟩ v.date.weekday_lt hn
  refine ⟨date, isDue_of_date hv hyear hmonth ?_ ?_ ((acceptsDate_iff hp date).mpr hnumber), hyear,
    hmonth⟩
  · rw [hdays]
    exact (mem_values_of_date date).2
  · rwa [Schedule.hasWeekday, hsame]

/-- The first four weeks of a month have the same days in every month. -/
theorem runsMonthly_of_weekdays {n : Nat} (hp : p.occurrence = some n) (hn : n ≤ 4)
    (hweekdays : p.schedule.weekdays = TimeUnit.weekday.values) {m : DateTime}
    (hm : p.isDue m = true) : p.RunsMonthly := by
  intro v hv
  obtain ⟨hmin, hmax, hfirst, hlast, -, -⟩ := v.date.exists_date
  have hlength := (monthLength_bounds v.date.year hfirst hlast).1
  rw [isDue, Bool.and_eq_true] at hm
  obtain ⟨-, -, -, hday, -, -⟩ := (Schedule.includes_iff m).mp hm.1
  have hoccurrence := (acceptsDate_iff hp m.date).mp hm.2
  obtain ⟨date, hyear, hmonth, hsame⟩ := Date.exists_of_day v.date.year v.date.month m.date.day
    ⟨hmin, hmax, hfirst, hlast, m.date.exists_date.2.2.2.2.1, by
      unfold occurrenceOf at hoccurrence
      omega⟩
  refine ⟨date, isDue_of_date hv hyear hmonth (hsame ▸ hday) ?_ ((acceptsDate_iff hp date).mpr ?_),
    hyear, hmonth⟩
  · rw [Schedule.hasWeekday, hweekdays, List.contains_iff_mem, mem_values]
    exact ⟨Nat.succ_pos _, date.weekday_lt⟩
  · rw [← hoccurrence, occurrenceOf, hsame, occurrenceOf]

/-- An occurrence up to the fourth is in every month, if the days of the month or the weekdays are
not restricted. -/
theorem runsMonthly_of_le_four {n : Nat} (hp : p.occurrence = some n) (hn : n ≤ 4)
    (hfields : p.schedule.days = TimeUnit.day.values ∨
      p.schedule.weekdays = TimeUnit.weekday.values) {m : DateTime} (hm : p.isDue m = true) :
    p.RunsMonthly := by
  rcases hfields with hdays | hweekdays
  · have hoccurrence : occurrenceOf m.date = n := by
      rw [isDue, Bool.and_eq_true] at hm
      exact (acceptsDate_iff hp m.date).mp hm.2
    have hpositive := (occurrenceOf_bounds m.date).1
    exact runsMonthly_of_days hp (by omega) hdays
  · exact runsMonthly_of_weekdays hp hn hweekdays hm

end Pattern

/-- The day, the hour and the minute of an instant, and which of two months it belongs to. -/
def minuteDigits (t v : DateTime) : Bool × Nat × Nat × Nat :=
  (decide (SameMonth v t), v.date.day, v.time.hour, v.time.minute)

def twoMonths : Finset (Bool × Nat × Nat × Nat) :=
  Finset.univ ×ˢ Finset.range 32 ×ˢ Finset.range 24 ×ˢ Finset.range 60

theorem card_twoMonths : twoMonths.card = 92160 := by
  rw [twoMonths, Finset.card_product, Finset.card_product, Finset.card_product, Finset.card_range,
    Finset.card_range, Finset.card_range, Finset.card_univ, Fintype.card_bool]

theorem minuteDigits_mem (t v : DateTime) : minuteDigits t v ∈ twoMonths := by
  obtain ⟨-, -, hfirst, hlast, -, hday⟩ := v.date.exists_date
  have hlength := (monthLength_bounds v.date.year hfirst hlast).2
  obtain ⟨hhour, hminute, -, -⟩ := v.time.exists_time
  simp only [twoMonths, minuteDigits, Finset.mem_product, Finset.mem_univ, Finset.mem_range,
    true_and]
  omega

/-- Two months have fewer minutes than a search goes through. -/
theorem ncard_lt_of_months {s : Schedule} (hseconds : s.seconds = [0]) {d : Direction}
    {t m : DateTime} (hmonths : ∀ v ∈ s.between d t m, SameMonth v t ∨ SameMonth v m) :
    (s.between d t m).ncard < scanLimit := by
  have hmaps : ∀ v ∈ s.between d t m, minuteDigits t v ∈ (twoMonths : Set (Bool × Nat × Nat × Nat)) :=
    fun v _ => Finset.mem_coe.mpr (minuteDigits_mem t v)
  have hinjective : Set.InjOn (minuteDigits t) (s.between d t m) := by
    intro v hv w hw heq
    simp only [minuteDigits, Prod.mk.injEq, decide_eq_decide] at heq
    obtain ⟨hmonth, hday, hhour, hminute⟩ := heq
    have hsame : v.date.year = w.date.year ∧ v.date.month = w.date.month := by
      have hvmonths := hmonths v hv
      have hwmonths := hmonths w hw
      unfold SameMonth at hmonth hvmonths hwmonths
      omega
    have hdate : v.date = w.date := Date.eq_of_digits hsame.1 hsame.2 hday
    have hvwhole := Schedule.toMinute_eq_of_includes hseconds hv.1.1 hv.1.2.1
    have hwwhole := Schedule.toMinute_eq_of_includes hseconds hw.1.1 hw.1.2.1
    refine DateTime.eq_of_timestamp_eq ?_ (hv.1.2.1.trans hw.1.2.1.symm)
    rw [← hvwhole, ← hwwhole]
    simp only [DateTime.timestamp, DateTime.toMinute, Time.toMinute, Time.secondOfDay, hdate, hhour,
      hminute]
  have hle := Set.ncard_le_ncard_of_injOn _ hmaps hinjective twoMonths.finite_toSet
  rw [Set.ncard_coe_finset, card_twoMonths] at hle
  exact hle.trans_lt (by decide)

/-- What lies in front of the nearest due minute lies in its month or in the month of `t`, if the
pattern runs in every month of its schedule. -/
theorem ncard_lt_of_runsMonthly {c : Cron} {d : Direction} {t m : DateTime}
    (hm : IsNearest d DateTime.timestamp (c.DueBeyond d t) (some m)) {p : Pattern}
    (hp : p ∈ c.patterns) (hseconds : p.schedule.seconds = [0]) (hmonthly : p.RunsMonthly) :
    (p.schedule.between d t.toMinute m).ncard < scanLimit := by
  refine ncard_lt_of_months hseconds fun v hv => ?_
  by_contra hapart
  obtain ⟨hvt, hvm⟩ := not_or.mp hapart
  obtain ⟨⟨hincludes, hnano, hbeyond⟩, hbefore⟩ := hv
  obtain ⟨date, hdue, hyear, hmonth⟩ := hmonthly v hincludes
  -- In the month of `v`, which lies between, the pattern is due at an instant `w`.
  obtain ⟨w, hw⟩ : ∃ w : DateTime, w = ⟨date, v.time⟩ := ⟨_, rfl⟩
  rw [← hw] at hdue hyear hmonth
  have hwt : ¬ SameMonth t.toMinute w := fun h => hvt ⟨(h.1.trans hyear).symm, (h.2.trans hmonth).symm⟩
  have hwm : ¬ SameMonth w m := fun h => hvm ⟨hyear.symm.trans h.1, hmonth.symm.trans h.2⟩
  have hwbeyond : d.Lt t.toMinute.timestamp w.timestamp := by
    rw [lt_timestamp_iff_month hwt, hyear, hmonth]
    exact (lt_timestamp_iff_month fun h => hvt ⟨h.1.symm, h.2.symm⟩).mp hbeyond
  have hwbefore : d.Lt w.timestamp m.timestamp := by
    rw [lt_timestamp_iff_month hwm, hyear, hmonth]
    exact (lt_timestamp_iff_month hvm).mp hbefore
  have hwincludes : p.schedule.includes w = true := by
    rw [Pattern.isDue, Bool.and_eq_true] at hdue
    exact hdue.1
  have hwwhole : w.toMinute = w :=
    Schedule.toMinute_eq_of_includes hseconds hwincludes (by rw [hw]; exact hnano)
  have hwdue : c.isDue w = true := by
    rw [isDue, hwwhole, List.any_eq_true]
    exact ⟨p, hp, hdue⟩
  exact hm.2 w ⟨hwwhole, hwdue, hwbeyond⟩ hwbefore

/-! ### What an expression hides -/

section

variable {c : Cron} {d : Direction} {steady : Bool} {t : DateTime}

theorem toMinute_of_run? (hread : ∀ p ∈ c.patterns, p.schedule.IsRead steady)
    (hseconds : ∀ p ∈ c.patterns, p.schedule.seconds = [0])
    (henum : ∀ p ∈ c.patterns, p.schedule.EnumeratesYears d) (ht : Schedule.InYears t)
    {u : DateTime} (hu : c.run? d t = some u) : u.toMinute = u := by
  obtain ⟨p, hp, hrun, -⟩ := hasRun_of_run? hread henum ht hu
  exact Schedule.toMinute_eq_of_includes (hseconds p hp) hrun.1.1 hrun.1.2.1

theorem reaches_of_le_four (hseconds : ∀ p ∈ c.patterns, p.schedule.seconds = [0])
    (hfour : ∀ p ∈ c.patterns, ∀ n ∈ p.occurrence, n ≤ 4 ∧
      (p.schedule.days = TimeUnit.day.values ∨ p.schedule.weekdays = TimeUnit.weekday.values))
    {m : DateTime} (hm : IsNearest d DateTime.timestamp (c.DueBeyond d t) (some m)) :
    c.Reaches d t m := by
  obtain ⟨-, p, hp, hrun⟩ := dueBeyond_iff_hasRun.mp hm.1
  refine ⟨p, hp, hrun.isDue, ncard_lt_of_runsMonthly hm hp (hseconds p hp) ?_⟩
  cases hoccurrence : p.occurrence with
  | none => exact fun v hv => ⟨v.date, by simp [Pattern.isDue, Pattern.acceptsDate, hoccurrence, hv],
      rfl, rfl⟩
  | some n =>
    obtain ⟨hn, hfields⟩ := hfour p hp n hoccurrence
    exact Pattern.runsMonthly_of_le_four hoccurrence hn hfields hrun.isDue

end

/-- As long as the schedules enumerate their instants, a run that is a whole minute is due, and it is
the nearest due minute exactly when some pattern that is due then has fewer instants than the limit
in front of it. The runs are whole minutes where nothing carries on the zero of the seconds; then an
occurrence up to the fourth hides nothing, if the days of the month or the weekdays are not
restricted. A schedule of all years enumerates its instants. -/
theorem runAgrees_iff_reaches {text : String} {c : Cron} (h : read text = .ok c) (d : Direction)
    {t : DateTime} (ht : Schedule.InYears t) :
    ((∀ p ∈ c.patterns, p.schedule.EnumeratesYears d) →
      (∀ u, c.run? d t = some u → u.toMinute = u → c.DueBeyond d t u) ∧
      ((∀ u, c.run? d t = some u → u.toMinute = u) → (c.RunAgrees d t ↔
        ∀ m, IsNearest d DateTime.timestamp (c.DueBeyond d t) (some m) → c.Reaches d t m)) ∧
      (continuesItem c.text.toList = false →
        (∀ u, c.run? d t = some u → u.toMinute = u) ∧
        ((∀ p ∈ c.patterns, ∀ n ∈ p.occurrence, n ≤ 4 ∧
          (p.schedule.days = TimeUnit.day.values ∨
            p.schedule.weekdays = TimeUnit.weekday.values)) → c.RunAgrees d t))) ∧
    ∀ p ∈ c.patterns, p.schedule.years = TimeUnit.year.values → p.schedule.EnumeratesYears d := by
  have hread := schedule_of_read h
  refine ⟨fun henum => ?_, fun p hp hyears =>
    Schedule.enumeratesYears_of_all (hread p hp).ascending hyears d⟩
  have hagrees := runAgrees_iff_forall_reaches hread henum ht
  refine ⟨fun u hu hwhole => ?_, hagrees, fun hsteady => ?_⟩
  · obtain ⟨p, hp, hrun, -⟩ := hasRun_of_run? hread henum ht hu
    exact dueBeyond_iff_hasRun.mpr ⟨hwhole, p, hp, hrun⟩
  · have hseconds : ∀ p ∈ c.patterns, p.schedule.seconds = [0] := fun p hp =>
      (hread p hp).seconds_eq (by rw [hsteady]; rfl)
    have hwhole : ∀ u, c.run? d t = some u → u.toMinute = u := fun u hu =>
      toMinute_of_run? hread hseconds henum ht hu
    exact ⟨hwhole, fun hfour => (hagrees hwhole).mpr fun m hm =>
      reaches_of_le_four hseconds hfour hm⟩

/-- Nine o'clock on the first Monday of a month. -/
def firstMondays : Cron :=
  ⟨"0 9 * * 1#1",
    [⟨⟨[0], [0], [9], TimeUnit.day.values, TimeUnit.month.values, [2], TimeUnit.year.values⟩,
      some 1⟩]⟩

theorem runAgrees_firstMondays :
    read "0 9 * * 1#1" = .ok firstMondays ∧ Schedule.InYears wednesdayNine ∧
      firstMondays.RunAgrees .forward wednesdayNine ∧
      firstMondays.next? wednesdayNine =
        some ⟨⟨2026, 1, 5, by decide⟩, ⟨9, 0, 0, 0, by decide⟩⟩ := by
  have hread : read "0 9 * * 1#1" = .ok firstMondays := by rfl
  have hyears : Schedule.InYears wednesdayNine := by
    unfold Schedule.InYears
    decide
  obtain ⟨hruns, henum⟩ := runAgrees_iff_reaches hread .forward hyears
  obtain ⟨-, -, hsteady⟩ := hruns fun p hp => henum p hp (by
    rw [List.mem_singleton.mp hp])
  refine ⟨hread, hyears, (hsteady rfl).2 fun p hp n hn => ?_, by rfl⟩
  rw [List.mem_singleton.mp hp] at hn ⊢
  cases hn
  exact ⟨by decide, Or.inl rfl⟩

theorem not_runAgrees_of_none {c : Cron} {d : Direction} {t m : DateTime}
    (hnone : c.run? d t = none) (hm : c.DueBeyond d t m) : ¬ c.RunAgrees d t := by
  unfold RunAgrees
  rw [hnone]
  exact fun h => h m hm

/-- Every minute of the fifth Monday of a February, which only leap years have. -/
def fifthFebruaryMondays : Cron :=
  ⟨"* * * 2 1#5",
    [⟨⟨[0], TimeUnit.minute.values, TimeUnit.hour.values, TimeUnit.day.values, [2], [2],
      TimeUnit.year.values⟩, some 5⟩]⟩

def springOfLeapYear : DateTime :=
  ⟨⟨2024, 3, 1, by decide⟩, .midnight⟩

def leapMonday : DateTime :=
  ⟨⟨2044, 2, 29, by decide⟩, .midnight⟩

/-- The Mondays of nineteen Februaries have more minutes than the search goes through. -/
theorem not_runAgrees_fifthFebruaryMondays :
    read "* * * 2 1#5" = .ok fifthFebruaryMondays ∧ Schedule.InYears springOfLeapYear ∧
      (∀ p ∈ fifthFebruaryMondays.patterns, p.schedule.EnumeratesYears .forward) ∧
      fifthFebruaryMondays.next? springOfLeapYear = none ∧
      fifthFebruaryMondays.DueBeyond .forward springOfLeapYear leapMonday ∧
      ¬ fifthFebruaryMondays.RunAgrees .forward springOfLeapYear := by
  have hread : read "* * * 2 1#5" = .ok fifthFebruaryMondays := by rfl
  have hyears : Schedule.InYears springOfLeapYear := by
    unfold Schedule.InYears
    decide
  have hnext : fifthFebruaryMondays.next? springOfLeapYear = none := by decide +kernel
  have hdue : fifthFebruaryMondays.DueBeyond .forward springOfLeapYear leapMonday :=
    ⟨by rfl, by rfl, by
      unfold Direction.Lt
      decide⟩
  refine ⟨hread, hyears, fun p hp => ?_, hnext, hdue, not_runAgrees_of_none hnext hdue⟩
  exact Schedule.enumeratesYears_of_all (schedule_of_read hread p hp).ascending
    (by rw [List.mem_singleton.mp hp]) .forward

end Placeholder.Temporal.Cron
