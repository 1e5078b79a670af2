import Mathlib
import Placeholder.Proofs.ReadSchedule

/-!
# The runs of a cron expression

The search for the next run, the search for the previous run and the test whether an expression is
due look at the same minutes, as long as a schedule has no second but 0. The searches go through the
instants of the schedules; a minute is due when the instant at its beginning belongs to one of them.
-/

namespace Placeholder.Calendar.DateTime

theorem toMinute_bounds (t : DateTime) : t.toMinute.timestamp % 60 = 0 ∧
    t.toMinute.timestamp ≤ t.timestamp ∧ t.timestamp < t.toMinute.timestamp + 60 := by
  have hsecond := t.time.exists_time.2.2.1
  unfold timestamp toMinute Time.toMinute Time.secondOfDay
  dsimp only
  omega

theorem toMinute_toMinute (t : DateTime) : t.toMinute.toMinute = t.toMinute := rfl

theorem nanosecond_of_toMinute_eq {t : DateTime} (h : t.toMinute = t) : t.time.nanosecond = 0 := by
  rw [← h]
  rfl

theorem toMinute_eq_iff {t : DateTime} (h : t.time.nanosecond = 0) :
    t.toMinute = t ↔ t.timestamp = t.toMinute.timestamp := by
  refine ⟨fun heq => by rw [heq], fun heq => eq_of_timestamp_eq heq.symm ?_⟩
  rw [h]
  rfl

/-- Every second of a minute is an instant. -/
theorem exists_second (t : DateTime) {second : Nat} (h : second < 60) :
    ∃ u : DateTime, u.toMinute = t.toMinute ∧ u.date = t.date ∧ u.time.hour = t.time.hour ∧
      u.time.minute = t.time.minute ∧ u.time.second = second ∧ u.time.nanosecond = 0 ∧
      u.timestamp = t.toMinute.timestamp + second :=
  have hexists := t.time.exists_time
  ⟨⟨t.date, ⟨t.time.hour, t.time.minute, second, 0, hexists.1, hexists.2.1, h, by decide⟩⟩,
    rfl, rfl, rfl, rfl, rfl, rfl, by
      simp only [timestamp, toMinute, Time.toMinute, Time.secondOfDay]
      omega⟩

end Placeholder.Calendar.DateTime

namespace Placeholder.Temporal.Cron

open Calendar

/-! ### The better of several instants -/

def Direction.better (d : Direction) : DateTime → DateTime → DateTime :=
  match d with
  | forward => earlier
  | backward => later

def Direction.step : Direction → Int
  | forward => 1
  | backward => -1

section

variable {d : Direction}

theorem Direction.not_lt_trans {a b c : Int} (hab : ¬ d.Lt a b) (hbc : ¬ d.Lt b c) :
    ¬ d.Lt a c := by
  cases d <;> simp only [Lt] at hab hbc ⊢ <;> omega

theorem better_spec (a b : DateTime) : (d.better a b = a ∨ d.better a b = b) ∧
    ¬ d.Lt a.timestamp (d.better a b).timestamp ∧
    ¬ d.Lt b.timestamp (d.better a b).timestamp := by
  cases d with
  | forward =>
    change (earlier a b = a ∨ earlier a b = b) ∧ ¬ a.timestamp < (earlier a b).timestamp ∧
      ¬ b.timestamp < (earlier a b).timestamp
    unfold earlier
    split <;> rename_i h <;> rw [DateTime.isBefore_iff] at h
    · exact ⟨Or.inr rfl, by omega, by omega⟩
    · exact ⟨Or.inl rfl, by omega, by omega⟩
  | backward =>
    change (later a b = a ∨ later a b = b) ∧ ¬ (later a b).timestamp < a.timestamp ∧
      ¬ (later a b).timestamp < b.timestamp
    unfold later
    split <;> rename_i h <;> rw [DateTime.isBefore_iff] at h
    · exact ⟨Or.inr rfl, by omega, by omega⟩
    · exact ⟨Or.inl rfl, by omega, by omega⟩

theorem isNearest_choose? (ts : List DateTime) :
    IsNearest d DateTime.timestamp (· ∈ ts) (choose? d.better ts) := by
  cases ts with
  | nil => exact fun _ => List.not_mem_nil
  | cons t ts =>
    -- The induction is on the rest; the better of the first two takes their place.
    induction ts generalizing t with
    | nil =>
      refine ⟨List.mem_singleton.mpr rfl, fun b hb => ?_⟩
      rw [List.mem_singleton.mp hb]
      exact fun hlt => hlt.asymm hlt
    | cons u ts ih =>
      obtain ⟨hmem, hfirst⟩ := ih (d.better t u)
      obtain ⟨hbetter, ht, hu⟩ := better_spec (d := d) t u
      have hbest := hfirst _ List.mem_cons_self
      refine ⟨?_, fun b hb => ?_⟩
      · rcases List.mem_cons.mp hmem with heq | hmem
        · change ts.foldl d.better (d.better t u) ∈ t :: u :: ts
          rw [heq]
          rcases hbetter with h | h <;> simp [h]
        · exact List.mem_cons_of_mem t (List.mem_cons_of_mem u hmem)
      · rcases List.mem_cons.mp hb with rfl | hb
        · exact Direction.not_lt_trans ht hbest
        · rcases List.mem_cons.mp hb with rfl | hb
          · exact Direction.not_lt_trans hu hbest
          · exact hfirst b (List.mem_cons_of_mem _ hb)

/-- The best answer of several searches is the answer of a search for what any of them looks
for. -/
theorem isNearest_choose?_filterMap {ps : List Pattern} {f : Pattern → Option DateTime}
    {P : Pattern → DateTime → Prop}
    (h : ∀ p ∈ ps, IsNearest d DateTime.timestamp (P p) (f p)) :
    IsNearest d DateTime.timestamp (fun u => ∃ p ∈ ps, P p u)
      (choose? d.better (ps.filterMap f)) := by
  have hfound : ∀ p ∈ ps, ∀ u, P p u → ∃ v ∈ ps.filterMap f, ¬ d.Lt u.timestamp v.timestamp := by
    intro p hp u hu
    have hnearest := h p hp
    cases hfp : f p with
    | none =>
      rw [hfp] at hnearest
      exact absurd hu (hnearest u)
    | some v =>
      rw [hfp] at hnearest
      exact ⟨v, List.mem_filterMap.mpr ⟨p, hp, hfp⟩, hnearest.2 u hu⟩
  have hbest := isNearest_choose? (d := d) (ps.filterMap f)
  cases hchoose : choose? d.better (ps.filterMap f) with
  | none =>
    rw [hchoose] at hbest
    rintro u ⟨p, hp, hu⟩
    obtain ⟨v, hv, -⟩ := hfound p hp u hu
    exact hbest v hv
  | some v =>
    rw [hchoose] at hbest
    obtain ⟨p, hp, hfp⟩ := List.mem_filterMap.mp hbest.1
    have hnearest := h p hp
    rw [hfp] at hnearest
    refine ⟨⟨p, hp, hnearest.1⟩, ?_⟩
    rintro u ⟨q, hq, hu⟩
    obtain ⟨w, hw, hnot⟩ := hfound q hq u hu
    exact Direction.not_lt_trans hnot (hbest.2 w hw)

end

/-! ### One pattern -/

theorem eq_zero_of_ascending {values : List Nat} (h : values.Pairwise (· < ·))
    (hzero : 0 ∈ values) (hall : ∀ v ∈ values, v = 0) : values = [0] := by
  cases values with
  | nil => cases hzero
  | cons v vs =>
    have hv := hall v List.mem_cons_self
    have hnil : vs = [] := List.eq_nil_iff_forall_not_mem.mpr fun w hw => by
      have hlt := (List.pairwise_cons.mp h).1 w hw
      rw [hall w (List.mem_cons_of_mem v hw)] at hlt
      exact absurd hlt (Nat.not_lt_zero v)
    rw [hv, hnil]

namespace Schedule

variable {s : Schedule}

theorem firstWhere?_of_accepts {accepts : Date → Bool} (h : ∀ d, accepts d = true)
    {fuel budget : Nat} (hfuel : 0 < fuel) (hbudget : 0 < budget) (q : DateTime) :
    s.firstWhere? accepts fuel budget q = s.firstFrom? q := by
  obtain ⟨fuel, rfl⟩ := Nat.exists_eq_succ_of_ne_zero hfuel.ne'
  rw [firstWhere?]
  cases s.firstFrom? q with
  | none => rfl
  | some t => rw [Option.bind_some, if_neg hbudget.ne', if_pos (h t.date)]

theorem lastWhere?_of_accepts {accepts : Date → Bool} (h : ∀ d, accepts d = true)
    {fuel budget : Nat} (hfuel : 0 < fuel) (hbudget : 0 < budget) (q : DateTime) :
    s.lastWhere? accepts fuel budget q = s.lastUpTo? q := by
  obtain ⟨fuel, rfl⟩ := Nat.exists_eq_succ_of_ne_zero hfuel.ne'
  rw [lastWhere?]
  cases s.lastUpTo? q with
  | none => rfl
  | some t => rw [Option.bind_some, if_neg hbudget.ne', if_pos (h t.date)]

/-- An instant of the schedule beyond `t`; the seconds of a schedule have no fractions. -/
def HasBeyond (s : Schedule) (d : Direction) (t u : DateTime) : Prop :=
  s.includes u = true ∧ u.time.nanosecond = 0 ∧ d.Lt t.timestamp u.timestamp

/-- The search from the second after `t`, or before it, finds the nearest instant of the schedule
beyond `t`. -/
def Enumerates (s : Schedule) (d : Direction) (t : DateTime) : Prop :=
  IsNearest d DateTime.timestamp (s.HasBeyond d t) ((t.addSeconds? d.step).bind (s.near? d))

theorem enumerates_of_supports {d : Direction} (hs : s.Ascending) {t q : DateTime}
    (hq : t.addSeconds? d.step = some q) (hyears : s.Supports d q) : s.Enumerates d t := by
  have hstep := (DateTime.addSeconds?_eq_some_iff.mp hq).1
  unfold Enumerates
  rw [hq, Option.bind_some]
  refine (isNearest_near? hs hyears).congr fun u => ?_
  have hbound : ¬ d.Lt u.timestamp q.timestamp ↔ d.Lt t.timestamp u.timestamp := by
    cases d <;> simp only [Direction.Lt, Direction.step] at hstep ⊢ <;> omega
  rw [hbound]
  rfl

theorem includes_toMinute (h : 0 ∈ s.seconds) {u : DateTime} (hu : s.includes u = true) :
    s.includes u.toMinute = true := by
  simp only [includes, includesTime, Bool.and_eq_true, List.contains_iff_mem] at hu ⊢
  exact ⟨hu.1, hu.2.1, h⟩

theorem toMinute_eq_of_includes (h : s.seconds = [0]) {u : DateTime} (hu : s.includes u = true)
    (hnano : u.time.nanosecond = 0) : u.toMinute = u := by
  have hsecond : u.time.second = 0 := by
    simp only [includes, includesTime, Bool.and_eq_true, List.contains_iff_mem, h] at hu
    exact List.mem_singleton.mp hu.2.2
  rw [DateTime.toMinute_eq_iff hnano]
  simp only [DateTime.timestamp, DateTime.toMinute, Time.toMinute, Time.secondOfDay, hsecond]

end Schedule

namespace Pattern

variable {p : Pattern} {steady : Bool}

def run? (p : Pattern) (d : Direction) (t : DateTime) : Option DateTime :=
  match d with
  | .forward => p.next? t
  | .backward => p.previous? t

theorem IsRead.acceptsDate_eq (h : p.IsRead steady) (date : Date) : p.acceptsDate date = true := by
  rw [acceptsDate, h.occurrence_eq]

theorem IsRead.isDue_eq (h : p.IsRead steady) (t : DateTime) :
    p.isDue t = p.schedule.includes t := by
  rw [isDue, h.acceptsDate_eq, Bool.and_true]

theorem IsRead.run?_eq (h : p.IsRead steady) (d : Direction) (t : DateTime) :
    p.run? d t = (t.addSeconds? d.step).bind (p.schedule.near? d) := by
  have hlimit : 0 < scanLimit := by decide
  cases d with
  | forward =>
    change p.next? t = (t.addSeconds? 1).bind p.schedule.firstFrom?
    unfold next?
    exact congrArg _ (funext fun q =>
      Schedule.firstWhere?_of_accepts h.acceptsDate_eq hlimit hlimit q)
  | backward =>
    change p.previous? t = (t.addSeconds? (-1)).bind p.schedule.lastUpTo?
    unfold previous?
    exact congrArg _ (funext fun q =>
      Schedule.lastWhere?_of_accepts h.acceptsDate_eq hlimit hlimit q)

/-- A pattern with another second than 0 has an instant inside each minute at which it is due. -/
theorem IsRead.exists_inside (h : p.IsRead steady) (hne : p.schedule.seconds ≠ [0]) {m : DateTime}
    (hm : p.isDue m = true) : ∃ u, p.schedule.includes u = true ∧ u.time.nanosecond = 0 ∧
      m.toMinute.timestamp < u.timestamp ∧ u.timestamp < m.toMinute.timestamp + 60 := by
  obtain ⟨second, hsecond, hpos⟩ : ∃ second ∈ p.schedule.seconds, 0 < second := by
    by_contra hnone
    push Not at hnone
    exact hne (eq_zero_of_ascending h.ascending.seconds h.zero_mem fun v hv =>
      Nat.le_zero.mp (hnone v hv))
  obtain ⟨u, hminute, hdate, hhour, hmin, hsec, hnano, hstamp⟩ :=
    m.exists_second (h.second_lt second hsecond)
  rw [h.isDue_eq] at hm
  refine ⟨u, ?_, hnano, by omega, ?_⟩
  · simp only [Schedule.includes, Schedule.includesTime, Bool.and_eq_true,
      List.contains_iff_mem] at hm ⊢
    rw [hdate, hhour, hmin, hsec]
    exact ⟨hm.1, hm.2.1, hsecond⟩
  · have hlt := h.second_lt second hsecond
    omega

end Pattern

/-! ### Runs and due minutes -/

def run? (c : Cron) (d : Direction) (t : DateTime) : Option DateTime :=
  match d with
  | .forward => c.next? t
  | .backward => c.previous? t

/-- A whole minute beyond the minute of `t` at which the expression is due. -/
def DueBeyond (c : Cron) (d : Direction) (t m : DateTime) : Prop :=
  m.toMinute = m ∧ c.isDue m = true ∧ d.Lt t.toMinute.timestamp m.timestamp

/-- The run beyond the minute of `t` is the nearest minute at which the expression is due, and there
is no run only where no such minute is due. -/
def RunAgrees (c : Cron) (d : Direction) (t : DateTime) : Prop :=
  IsNearest d DateTime.timestamp (c.DueBeyond d t) (c.run? d t)

section

variable {c : Cron} {d : Direction} {t m : DateTime} {steady : Bool}

theorem isDue_iff (hread : ∀ p ∈ c.patterns, p.IsRead steady) (m : DateTime) :
    c.isDue m = true ↔ ∃ p ∈ c.patterns, p.schedule.includes m.toMinute = true := by
  rw [isDue, List.any_eq_true]
  constructor
  · rintro ⟨p, hp, hdue⟩
    exact ⟨p, hp, by rwa [← (hread p hp).isDue_eq]⟩
  · rintro ⟨p, hp, hdue⟩
    exact ⟨p, hp, by rwa [(hread p hp).isDue_eq]⟩

theorem dueBeyond_iff (hread : ∀ p ∈ c.patterns, p.IsRead steady) : c.DueBeyond d t m ↔
    m.toMinute = m ∧ ∃ p ∈ c.patterns, p.schedule.HasBeyond d t.toMinute m := by
  unfold DueBeyond
  rw [isDue_iff hread]
  constructor
  · rintro ⟨hwhole, ⟨p, hp, hdue⟩, hlt⟩
    rw [hwhole] at hdue
    exact ⟨hwhole, p, hp, hdue, DateTime.nanosecond_of_toMinute_eq hwhole, hlt⟩
  · rintro ⟨hwhole, p, hp, hdue, -, hlt⟩
    exact ⟨hwhole, ⟨p, hp, by rwa [hwhole]⟩, hlt⟩

/-- The run is the nearest of the instants of all patterns. -/
theorem isNearest_run? (hread : ∀ p ∈ c.patterns, p.IsRead steady)
    (henum : ∀ p ∈ c.patterns, p.schedule.Enumerates d t.toMinute) :
    IsNearest d DateTime.timestamp
      (fun u => ∃ p ∈ c.patterns, p.schedule.HasBeyond d t.toMinute u) (c.run? d t) := by
  have heq : c.run? d t = choose? d.better (c.patterns.filterMap fun p => p.run? d t.toMinute) := by
    cases d <;> rfl
  rw [heq]
  refine isNearest_choose?_filterMap fun p hp => ?_
  rw [(hread p hp).run?_eq]
  exact henum p hp

theorem runAgrees_iff_whole (hread : ∀ p ∈ c.patterns, p.IsRead steady)
    (henum : ∀ p ∈ c.patterns, p.schedule.Enumerates d t.toMinute) :
    c.RunAgrees d t ↔ ∀ u, c.run? d t = some u → u.toMinute = u := by
  have hrun := isNearest_run? hread henum
  unfold RunAgrees
  cases hu : c.run? d t with
  | none =>
    rw [hu] at hrun
    exact ⟨fun _ _ => nofun, fun _ m hm => hrun m ((dueBeyond_iff hread).mp hm).2⟩
  | some u =>
    rw [hu] at hrun
    constructor
    · rintro hagrees v ⟨⟩
      exact hagrees.1.1
    · intro hwhole
      exact ⟨(dueBeyond_iff hread).mpr ⟨hwhole u rfl, hrun.1⟩, fun m hm =>
        hrun.2 m ((dueBeyond_iff hread).mp hm).2⟩

/-- The next run may only miss a minute inside the minute that the search starts from. -/
theorem runAgrees_forward_iff (hread : ∀ p ∈ c.patterns, p.IsRead steady)
    (henum : ∀ p ∈ c.patterns, p.schedule.Enumerates .forward t.toMinute) :
    c.RunAgrees .forward t ↔
      ∀ p ∈ c.patterns, p.isDue t.toMinute = true → p.schedule.seconds = [0] := by
  have hrun := isNearest_run? hread henum
  rw [runAgrees_iff_whole hread henum]
  constructor
  · intro hwhole p hp hdue
    by_contra hne
    obtain ⟨u, hu, hnano, hafter, hbefore⟩ := (hread p hp).exists_inside hne hdue
    cases hv : c.run? .forward t with
    | none =>
      rw [hv] at hrun
      exact hrun u ⟨p, hp, hu, hnano, hafter⟩
    | some v =>
      rw [hv] at hrun
      obtain ⟨⟨q, hq, -, -, hlt⟩, hfirst⟩ := hrun
      have hnot := hfirst u ⟨p, hp, hu, hnano, hafter⟩
      have hv' := v.toMinute_bounds
      have ht' := t.toMinute_bounds
      rw [hwhole v hv] at hv'
      simp only [Direction.Lt] at hlt hnot
      rw [DateTime.toMinute_toMinute] at hbefore
      omega
  · intro hsteady u hu
    rw [hu] at hrun
    obtain ⟨⟨p, hp, hincludes, hnano, hlt⟩, hfirst⟩ := hrun
    have hminute := Schedule.includes_toMinute (hread p hp).zero_mem hincludes
    have hu' := u.toMinute_bounds
    have ht' := t.toMinute_bounds
    -- The first instant lies in the minute of `t`, or it is the beginning of a later minute.
    by_cases hsame : u.toMinute.timestamp = t.toMinute.timestamp
    · have heq : u.toMinute = t.toMinute := DateTime.eq_of_timestamp_eq hsame rfl
      refine Schedule.toMinute_eq_of_includes (hsteady p hp ?_) hincludes hnano
      rwa [(hread p hp).isDue_eq, ← heq]
    · have hnot := hfirst u.toMinute ⟨p, hp, hminute, rfl, by
        simp only [Direction.Lt] at hlt ⊢
        omega⟩
      rw [DateTime.toMinute_eq_iff hnano]
      simp only [Direction.Lt] at hnot
      omega

/-- The previous run lies in the last minute that is due, and may miss its beginning. -/
theorem runAgrees_backward_iff (hread : ∀ p ∈ c.patterns, p.IsRead steady)
    (henum : ∀ p ∈ c.patterns, p.schedule.Enumerates .backward t.toMinute) :
    c.RunAgrees .backward t ↔
      ∀ m, IsNearest .backward DateTime.timestamp (c.DueBeyond .backward t) (some m) →
        ∀ p ∈ c.patterns, p.isDue m = true → p.schedule.seconds = [0] := by
  have hrun := isNearest_run? hread henum
  have ht' := t.toMinute_bounds
  rw [runAgrees_iff_whole hread henum]
  constructor
  · rintro hwhole m ⟨hm, hlast⟩ p hp hdue
    by_contra hne
    obtain ⟨u, hu, hnano, hafter, hbefore⟩ := (hread p hp).exists_inside hne hdue
    obtain ⟨hm, -, hlt⟩ := hm
    have hm' := m.toMinute_bounds
    have hbeyond : p.schedule.HasBeyond .backward t.toMinute u := ⟨hu, hnano, by
      simp only [Direction.Lt] at hlt ⊢
      rw [hm] at hm' hbefore
      omega⟩
    cases hv : c.run? .backward t with
    | none =>
      rw [hv] at hrun
      exact hrun u ⟨p, hp, hbeyond⟩
    | some v =>
      rw [hv] at hrun
      obtain ⟨hfound, hfirst⟩ := hrun
      have hnot := hfirst u ⟨p, hp, hbeyond⟩
      have hbetween := hlast v ((dueBeyond_iff hread).mpr ⟨hwhole v hv, hfound⟩)
      simp only [Direction.Lt] at hnot hbetween
      rw [hm] at hafter
      omega
  · intro hsteady u hu
    rw [hu] at hrun
    obtain ⟨⟨p, hp, hincludes, hnano, hlt⟩, hfirst⟩ := hrun
    have hminute := Schedule.includes_toMinute (hread p hp).zero_mem hincludes
    have hu' := u.toMinute_bounds
    simp only [Direction.Lt] at hlt
    -- The minute of the last instant is the last due minute: a later one would begin behind it.
    have hlast : IsNearest .backward DateTime.timestamp (c.DueBeyond .backward t)
        (some u.toMinute) := by
      refine ⟨(dueBeyond_iff hread).mpr ⟨rfl, p, hp, hminute, rfl, ?_⟩, fun m hm => ?_⟩
      · simp only [Direction.Lt]
        omega
      · obtain ⟨hwhole, hfound⟩ := (dueBeyond_iff hread).mp hm
        have hnot := hfirst m hfound
        have hm' := m.toMinute_bounds
        rw [hwhole] at hm'
        simp only [Direction.Lt] at hnot ⊢
        omega
    refine Schedule.toMinute_eq_of_includes (hsteady u.toMinute hlast p hp ?_) hincludes hnano
    rwa [(hread p hp).isDue_eq]

end

/-- For an expression without `#`, and as long as the schedules enumerate their instants, the next
run is the first due minute exactly when no pattern that is due in the minute of `t` has a second
but 0, and the previous run is the last due minute exactly when no pattern that is due then has one.
The schedules enumerate their instants within their years. Other seconds than 0 come only from
minutes that begin with a character which carries on the item in front of it. -/
theorem runAgrees_iff {text : String} {c : Cron} (h : read text = .ok c) (hhash : '#' ∉ text.toList)
    (t : DateTime) :
    ((∀ p ∈ c.patterns, p.schedule.Enumerates .forward t.toMinute) →
      (c.RunAgrees .forward t ↔
        ∀ p ∈ c.patterns, p.isDue t.toMinute = true → p.schedule.seconds = [0])) ∧
    ((∀ p ∈ c.patterns, p.schedule.Enumerates .backward t.toMinute) →
      (c.RunAgrees .backward t ↔
        ∀ m, IsNearest .backward DateTime.timestamp (c.DueBeyond .backward t) (some m) →
          ∀ p ∈ c.patterns, p.isDue m = true → p.schedule.seconds = [0])) ∧
    (∀ d q, t.toMinute.addSeconds? d.step = some q →
      ∀ p ∈ c.patterns, p.schedule.Supports d q → p.schedule.Enumerates d t.toMinute) ∧
    (continuesItem c.text.toList = false → ∀ p ∈ c.patterns, p.schedule.seconds = [0]) := by
  have hread := isRead_of_read h hhash
  refine ⟨fun henum => runAgrees_forward_iff hread henum,
    fun henum => runAgrees_backward_iff hread henum, fun d q hq p hp hyears => ?_,
    fun hsteady p hp => ?_⟩
  · exact Schedule.enumerates_of_supports (hread p hp).ascending hq hyears
  · exact (hread p hp).seconds_eq (by rw [hsteady]; rfl)

/-- Nine o'clock on every Friday and on every thirteenth. -/
def fridaysAndThirteenths : Cron :=
  ⟨"0 9 13 * 5",
    [⟨⟨[0], [0], [9], [13], TimeUnit.month.values, TimeUnit.weekday.values,
        TimeUnit.year.values⟩, none⟩,
      ⟨⟨[0], [0], [9], TimeUnit.day.values, TimeUnit.month.values, [6],
        TimeUnit.year.values⟩, none⟩]⟩

/-- Nine o'clock on a Wednesday. -/
def wednesdayNine : DateTime :=
  ⟨⟨2025, 12, 17, by decide⟩, ⟨9, 0, 0, 0, by decide⟩⟩

theorem runAgrees_fridaysAndThirteenths :
    read "0 9 13 * 5" = .ok fridaysAndThirteenths ∧ '#' ∉ "0 9 13 * 5".toList ∧
      fridaysAndThirteenths.RunAgrees .forward wednesdayNine ∧
      fridaysAndThirteenths.RunAgrees .backward wednesdayNine ∧
      (fridaysAndThirteenths.next? wednesdayNine).map (·.date.day) = some 19 ∧
      (fridaysAndThirteenths.previous? wednesdayNine).map (·.date.day) = some 13 := by
  have hread : read "0 9 13 * 5" = .ok fridaysAndThirteenths := by rfl
  have hhash : '#' ∉ "0 9 13 * 5".toList := by decide
  obtain ⟨hforward, hbackward, henum, hseconds⟩ := runAgrees_iff hread hhash wednesdayNine
  have hsteady := hseconds rfl
  have hyears : ∀ p ∈ fridaysAndThirteenths.patterns, 2025 ∈ p.schedule.years := by decide +kernel
  have hafter : wednesdayNine.toMinute.addSeconds? Direction.forward.step =
      some ⟨wednesdayNine.date, ⟨9, 0, 1, 0, by decide⟩⟩ := by decide +kernel
  have hbefore : wednesdayNine.toMinute.addSeconds? Direction.backward.step =
      some ⟨wednesdayNine.date, ⟨8, 59, 59, 0, by decide⟩⟩ := by decide +kernel
  refine ⟨hread, hhash, ?_, ?_, by rfl, by rfl⟩
  · exact (hforward fun p hp => henum .forward _ hafter p hp
      (Or.inl ⟨2025, hyears p hp, rfl⟩)).mpr fun p hp _ => hsteady p hp
  · exact (hbackward fun p hp => henum .backward _ hbefore p hp
      (Or.inl ⟨2025, hyears p hp, rfl⟩)).mpr fun _ _ p hp _ => hsteady p hp

/-- What is read from minutes that begin with a comma. -/
def halfMinutes : Cron :=
  ⟨",30* * * * *",
    [⟨⟨[0, 30], TimeUnit.minute.values, TimeUnit.hour.values, TimeUnit.day.values,
        TimeUnit.month.values, TimeUnit.weekday.values, TimeUnit.year.values⟩, none⟩]⟩

/-- The comma adds a second to the zero in front of the minutes, and the next run lies inside the
minute that the search starts from. -/
theorem not_runAgrees_halfMinutes :
    read ",30* * * * *" = .ok halfMinutes ∧ '#' ∉ ",30* * * * *".toList ∧
      (∀ p ∈ halfMinutes.patterns, p.schedule.Enumerates .forward wednesdayNine.toMinute) ∧
      halfMinutes.next? wednesdayNine =
        some ⟨wednesdayNine.date, ⟨9, 0, 30, 0, by decide⟩⟩ ∧
      ¬ halfMinutes.RunAgrees .forward wednesdayNine := by
  have hread : read ",30* * * * *" = .ok halfMinutes := by rfl
  have hhash : '#' ∉ ",30* * * * *".toList := by decide
  have hnext : halfMinutes.next? wednesdayNine =
      some ⟨wednesdayNine.date, ⟨9, 0, 30, 0, by decide⟩⟩ := rfl
  have hyears : ∀ p ∈ halfMinutes.patterns, 2025 ∈ p.schedule.years := by decide +kernel
  refine ⟨hread, hhash, fun p hp => ?_, hnext, fun hagrees => ?_⟩
  · have hq : wednesdayNine.toMinute.addSeconds? Direction.forward.step =
        some ⟨wednesdayNine.date, ⟨9, 0, 1, 0, by decide⟩⟩ := by decide +kernel
    exact Schedule.enumerates_of_supports (isRead_of_read hread hhash p hp).ascending hq
      (Or.inl ⟨2025, hyears p hp, rfl⟩)
  · have hwhole : IsNearest .forward DateTime.timestamp
        (halfMinutes.DueBeyond .forward wednesdayNine) (halfMinutes.next? wednesdayNine) := hagrees
    rw [hnext] at hwhole
    exact absurd hwhole.1.1 (by decide)

end Placeholder.Temporal.Cron
