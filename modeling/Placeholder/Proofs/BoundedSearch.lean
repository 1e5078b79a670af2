import Mathlib
import Placeholder.Proofs.CronRuns

/-!
# The search for an accepted date

The search for an instant on an accepted date passes over the instants of a refused date together
and counts them. It finds the nearest instant on an accepted date exactly when fewer instants than
its budget lie in front of that.
-/

namespace Placeholder.Temporal.Cron

open Calendar

namespace Schedule

variable {s : Schedule} {d : Direction} {steady : Bool}

/-! ### Times of day -/

/-- The number of times of day that a search meets from `t` on. -/
def timesBeyond (s : Schedule) (d : Direction) (t : Time) : Nat :=
  match d with
  | .forward => s.timesFrom t
  | .backward => s.timesUpTo t

theorem timesBeyond_eq (s : Schedule) (d : Direction) (t : Time) :
    s.timesBeyond d t =
      (s.hours.filter fun h : Nat => !d.meets h t.hour).length * s.minutes.length *
          s.seconds.length +
        (s.minutes.filter fun m : Nat => !d.meets m t.minute).length * s.seconds.length +
        (s.seconds.filter fun sec : Nat => d.meets t.second sec).length := by
  cases d <;> simp [timesBeyond, timesFrom, timesUpTo, Direction.meets, ← decide_not]

/-- The hours, minutes and seconds that a search meets from `t` on. -/
def digitsBeyond (s : Schedule) (d : Direction) (t : Time) : Finset (Nat × Nat × Nat) :=
  (s.hours.filter fun h : Nat => !d.meets h t.hour).toFinset ×ˢ
      s.minutes.toFinset ×ˢ s.seconds.toFinset ∪
    ({t.hour} ×ˢ (s.minutes.filter fun m : Nat => !d.meets m t.minute).toFinset ×ˢ
        s.seconds.toFinset ∪
      {t.hour} ×ˢ {t.minute} ×ˢ (s.seconds.filter fun sec : Nat => d.meets t.second sec).toFinset)

theorem mem_digitsBeyond {t : Time} (ht : s.includesTime t = true) {h m sec : Nat} :
    (h, m, sec) ∈ s.digitsBeyond d t ↔
      (h ∈ s.hours ∧ m ∈ s.minutes ∧ sec ∈ s.seconds) ∧
        (d.Lt t.hour h ∨ h = t.hour ∧ (d.Lt t.minute m ∨ m = t.minute ∧
          (d.Lt t.second sec ∨ sec = t.second ∧ True))) := by
  have hfar : ∀ a b : Nat, (!d.meets a b) = true ↔ d.Lt b a := fun a b => by
    rw [Bool.not_eq_true', Bool.eq_false_iff, Ne, Direction.meets_iff, not_not]
  have hnear : ∀ a b : Nat, d.meets a b = true ↔ d.Lt a b ∨ b = a ∧ True := fun a b => by
    rw [Direction.meets_iff_eq_or, Int.natCast_inj, and_true, or_comm]
  simp only [includesTime, Bool.and_eq_true, List.contains_iff_mem] at ht
  obtain ⟨⟨hhour, hminute⟩, -⟩ := ht
  simp only [digitsBeyond, Finset.mem_union, Finset.mem_product, List.mem_toFinset,
    List.mem_filter, Finset.mem_singleton, hfar, hnear]
  constructor
  · rintro (⟨⟨hh, hlt⟩, hrest⟩ | ⟨rfl, ⟨hm, hlt⟩, hsec⟩ | ⟨rfl, rfl, hsec, hlt⟩)
    · exact ⟨⟨hh, hrest⟩, Or.inl hlt⟩
    · exact ⟨⟨hhour, hm, hsec⟩, Or.inr ⟨rfl, Or.inl hlt⟩⟩
    · exact ⟨⟨hhour, hminute, hsec⟩, Or.inr ⟨rfl, Or.inr ⟨rfl, hlt⟩⟩⟩
  · rintro ⟨⟨hh, hm, hsec⟩, hlt | ⟨heq, hlt | ⟨heq', hlt⟩⟩⟩
    · exact Or.inl ⟨⟨hh, hlt⟩, hm, hsec⟩
    · exact Or.inr (Or.inl ⟨heq, ⟨hm, hlt⟩, hsec⟩)
    · exact Or.inr (Or.inr ⟨heq, heq', hsec, hlt⟩)

theorem card_digitsBeyond (hs : s.Ascending) (t : Time) :
    (s.digitsBeyond d t).card = s.timesBeyond d t := by
  have hcard : ∀ {values : List Nat}, values.Pairwise (· < ·) →
      values.toFinset.card = values.length := fun h =>
    List.toFinset_card_of_nodup (h.imp ne_of_lt)
  have hself : ∀ n : Nat, d.meets n n = true := fun n => Direction.meets_iff_eq_or.mpr (Or.inl rfl)
  have hhour : Disjoint
      ((s.hours.filter fun h : Nat => !d.meets h t.hour).toFinset ×ˢ
        s.minutes.toFinset ×ˢ s.seconds.toFinset)
      ({t.hour} ×ˢ (s.minutes.filter fun m : Nat => !d.meets m t.minute).toFinset ×ˢ
          s.seconds.toFinset ∪
        {t.hour} ×ˢ {t.minute} ×ˢ
          (s.seconds.filter fun sec : Nat => d.meets t.second sec).toFinset) := by
    rw [← Finset.product_union, Finset.disjoint_product]
    refine Or.inl (Finset.disjoint_singleton_right.mpr ?_)
    simp [hself]
  have hminute : Disjoint
      ({t.hour} ×ˢ (s.minutes.filter fun m : Nat => !d.meets m t.minute).toFinset ×ˢ
          s.seconds.toFinset)
      ({t.hour} ×ˢ {t.minute} ×ˢ
          (s.seconds.filter fun sec : Nat => d.meets t.second sec).toFinset) := by
    rw [Finset.disjoint_product, Finset.disjoint_product]
    refine Or.inr (Or.inl (Finset.disjoint_singleton_right.mpr ?_))
    simp [hself]
  rw [digitsBeyond, Finset.card_union_of_disjoint hhour, Finset.card_union_of_disjoint hminute]
  simp only [Finset.card_product, Finset.card_singleton, hcard hs.minutes, hcard hs.seconds,
    hcard (hs.hours.filter _), hcard (hs.minutes.filter _), hcard (hs.seconds.filter _)]
  rw [timesBeyond_eq]
  ring

theorem ncard_times (hs : s.IsRead steady) {t : Time} (ht : s.includesTime t = true) :
    {u : Time | u.nanosecond = 0 ∧ s.includesTime u = true ∧
      ¬ d.Lt u.secondOfDay t.secondOfDay}.ncard = s.timesBeyond d t := by
  have hinjective : Set.InjOn (fun u : Time => (u.hour, u.minute, u.second))
      {u : Time | u.nanosecond = 0 ∧ s.includesTime u = true ∧
        ¬ d.Lt u.secondOfDay t.secondOfDay} := by
    rintro ⟨h, m, sec, nano, _⟩ ⟨hu, -⟩ ⟨h', m', sec', nano', _⟩ ⟨hv, -⟩ heq
    simp only [Prod.mk.injEq, Time.mk.injEq] at heq hu hv ⊢
    exact ⟨heq.1, heq.2.1, heq.2.2, hu.trans hv.symm⟩
  have himage : (fun u : Time => (u.hour, u.minute, u.second)) ''
      {u : Time | u.nanosecond = 0 ∧ s.includesTime u = true ∧
        ¬ d.Lt u.secondOfDay t.secondOfDay} = ↑(s.digitsBeyond d t) := by
    ext ⟨h, m, sec⟩
    rw [Finset.mem_coe, mem_digitsBeyond ht]
    simp only [Set.mem_image, Set.mem_ofPred_eq, Prod.mk.injEq, Direction.not_lt_secondOfDay,
      includesTime, Bool.and_eq_true, List.contains_iff_mem]
    constructor
    · rintro ⟨u, ⟨-, ⟨⟨hhour, hminute⟩, hsecond⟩, hbeyond⟩, rfl, rfl, rfl⟩
      exact ⟨⟨hhour, hminute, hsecond⟩, hbeyond⟩
    · rintro ⟨⟨hhour, hminute, hsecond⟩, hbeyond⟩
      exact ⟨⟨h, m, sec, 0, hs.hour_lt h hhour, hs.minute_lt m hminute, hs.second_lt sec hsecond,
        by decide⟩, ⟨rfl, ⟨⟨hhour, hminute⟩, hsecond⟩, hbeyond⟩, rfl, rfl, rfl⟩
  rw [← hinjective.ncard_image, himage, Set.ncard_coe_finset, card_digitsBeyond hs.ascending]

/-! ### The instants between two bounds -/

/-- An instant of the schedule that a search from the second `b` meets. -/
def HasFrom (s : Schedule) (d : Direction) (b : Int) (u : DateTime) : Prop :=
  s.includes u = true ∧ u.time.nanosecond = 0 ∧ ¬ d.Lt u.timestamp b

/-- The instants that a search from the second `b` meets before the second `e`. -/
def instants (s : Schedule) (d : Direction) (b e : Int) : Set DateTime :=
  {u | s.HasFrom d b u ∧ d.Lt u.timestamp e}

/-- The instants of the schedule on the date of `t` from `t` on. -/
def instantsOnDate (s : Schedule) (d : Direction) (t : DateTime) : Set DateTime :=
  {u | s.includes u = true ∧ u.time.nanosecond = 0 ∧ u.date = t.date ∧
    ¬ d.Lt u.time.secondOfDay t.time.secondOfDay}

theorem finite_instants (s : Schedule) (d : Direction) (b e : Int) : (s.instants d b e).Finite := by
  have hmaps : Set.MapsTo DateTime.timestamp (s.instants d b e) (Set.Icc (min b e) (max b e)) := by
    rintro u ⟨⟨-, -, hfrom⟩, hbefore⟩
    rw [Set.mem_Icc]
    cases d <;> simp only [Direction.Lt] at hfrom hbefore <;> omega
  refine Set.Finite.of_injOn hmaps (fun u hu v hv heq => ?_) (Set.finite_Icc _ _)
  exact DateTime.eq_of_timestamp_eq heq (hu.1.2.1.trans hv.1.2.1.symm)

theorem ncard_instantsOnDate (hs : s.IsRead steady) {t : DateTime} (ht : s.includes t = true) :
    (s.instantsOnDate d t).ncard = s.timesBeyond d t.time := by
  have hinjective : Function.Injective fun time : Time => (⟨t.date, time⟩ : DateTime) :=
    fun a b heq => (DateTime.mk.inj heq).2
  rw [includes, Bool.and_eq_true] at ht
  have himage : (fun time : Time => (⟨t.date, time⟩ : DateTime)) ''
      {u : Time | u.nanosecond = 0 ∧ s.includesTime u = true ∧
        ¬ d.Lt u.secondOfDay t.time.secondOfDay} = s.instantsOnDate d t := by
    ext ⟨date, time⟩
    simp only [Set.mem_image, Set.mem_ofPred_eq, DateTime.mk.injEq, instantsOnDate, includes,
      Bool.and_eq_true]
    constructor
    · rintro ⟨u, ⟨hnano, hu, hbeyond⟩, rfl, rfl⟩
      exact ⟨⟨ht.1, hu⟩, hnano, rfl, hbeyond⟩
    · rintro ⟨⟨-, hu⟩, hnano, rfl, hbeyond⟩
      exact ⟨time, ⟨hnano, hu, hbeyond⟩, rfl, rfl⟩
  rw [← himage, hinjective.injOn.ncard_image, ncard_times hs ht.2]

theorem timesBeyond_pos {t : Time} (ht : s.includesTime t = true) : 0 < s.timesBeyond d t := by
  simp only [includesTime, Bool.and_eq_true, List.contains_iff_mem] at ht
  have hself : d.meets t.second t.second = true := Direction.meets_iff_eq_or.mpr (Or.inl rfl)
  have hfirst : 0 < (s.seconds.filter fun sec : Nat => d.meets t.second sec).length :=
    List.length_pos_of_mem (List.mem_filter.mpr ⟨ht.2, hself⟩)
  rw [timesBeyond_eq]
  omega

end Schedule

/-! ### From one day to the next -/

namespace Direction

variable {d : Direction}

/-- The second at which a search goes on when it leaves a date. -/
def secondAfterDate (d : Direction) (date : Date) : Int :=
  match d with
  | forward => 86400 * date.dayNumber + 86400
  | backward => 86400 * date.dayNumber - 1

def afterDate? (d : Direction) (date : Date) : Option DateTime :=
  match d with
  | forward => (⟨date, .midnight⟩ : DateTime).addSeconds? 86400
  | backward => (⟨date, .midnight⟩ : DateTime).addSeconds? (-1)

/-- The last second of a date that a search meets. -/
def endOfDate (d : Direction) (date : Date) : DateTime :=
  match d with
  | forward => ⟨date, ⟨23, 59, 59, 0, by decide⟩⟩
  | backward => ⟨date, .midnight⟩

theorem endOfDate_spec (d : Direction) (date : Date) : (d.endOfDate date).date = date ∧
    (d.endOfDate date).timestamp + d.step = d.secondAfterDate date ∧
    (d.endOfDate date).addSeconds? d.step = d.afterDate? date := by
  cases d with
  | forward =>
    have hstamp : (endOfDate .forward date).timestamp + 1 =
        (⟨date, .midnight⟩ : DateTime).timestamp + 86400 := by
      simp only [endOfDate, DateTime.timestamp, Time.secondOfDay, Time.midnight]
      omega
    refine ⟨rfl, ?_, ?_⟩
    · simp only [endOfDate, step, secondAfterDate, DateTime.timestamp, Time.secondOfDay]
      omega
    · exact congrArg (DateTime.ofTimestamp? · 0) hstamp
  | backward => exact ⟨rfl, by simp [endOfDate, step, secondAfterDate, DateTime.timestamp,
      Time.secondOfDay, Time.midnight, sub_eq_add_neg], rfl⟩

theorem lt_timestamp_iff {u t : DateTime} (h : u.date = t.date) :
    d.Lt u.timestamp t.timestamp ↔ d.Lt u.time.secondOfDay t.time.secondOfDay := by
  cases d <;> simp only [Lt, DateTime.timestamp, h] <;> omega

/-- Where the search is on a date, it leaves the date behind or stays on it. -/
theorem not_lt_secondAfterDate {u t : DateTime} (h : ¬ d.Lt u.timestamp t.timestamp) :
    u.date = t.date ∨ ¬ d.Lt u.timestamp (d.secondAfterDate t.date) := by
  by_cases heq : u.date = t.date
  · exact Or.inl heq
  · have hne : u.date.dayNumber ≠ t.date.dayNumber := fun hnumber =>
      heq (Option.some.inj ((Date.ofDayNumber?_dayNumber u.date).symm.trans
        (hnumber ▸ Date.ofDayNumber?_dayNumber t.date)))
    have hu := u.time.secondOfDay_lt
    have ht := t.time.secondOfDay_lt
    refine Or.inr ?_
    cases d <;> simp only [Lt, secondAfterDate, DateTime.timestamp] at h ⊢ <;> omega

theorem ne_date_of_not_lt {u : DateTime} {date : Date}
    (h : ¬ d.Lt u.timestamp (d.secondAfterDate date)) : u.date ≠ date := by
  rintro rfl
  have hu := u.time.secondOfDay_lt
  cases d <;> simp only [Lt, secondAfterDate, DateTime.timestamp] at h <;> omega

theorem lt_secondAfterDate {u t : DateTime} (h : u.date = t.date) :
    d.Lt u.timestamp (d.secondAfterDate t.date) := by
  by_contra hnot
  exact ne_date_of_not_lt hnot h

end Direction

namespace Schedule

variable {s : Schedule} {d : Direction} {steady : Bool} {b e : Int} {t u : DateTime}

/-- The nearest instant from the second `b` on is met before every other one. -/
theorem HasFrom.not_lt_secondAfterDate
    (ht : IsNearest d DateTime.timestamp (s.HasFrom d b) (some t)) (hu : s.HasFrom d b u) :
    u.date = t.date ∨ s.HasFrom d (d.secondAfterDate t.date) u :=
  (Direction.not_lt_secondAfterDate (ht.2 u hu)).imp_right fun hleft => ⟨hu.1, hu.2.1, hleft⟩

theorem HasFrom.of_secondAfterDate (ht : s.HasFrom d b t)
    (hu : s.HasFrom d (d.secondAfterDate t.date) u) : s.HasFrom d b u := by
  obtain ⟨hincludes, hnano, hleft⟩ := hu
  have hleaves := Direction.lt_secondAfterDate (d := d) (rfl : t.date = t.date)
  have hfrom := ht.2.2
  refine ⟨hincludes, hnano, ?_⟩
  cases d <;> simp only [Direction.Lt] at hleaves hleft hfrom ⊢ <;> omega

/-- The instants up to a later date: those on the date of the first one, and those from the next
date on. -/
theorem ncard_instants (hs : s.IsRead steady)
    (ht : IsNearest d DateTime.timestamp (s.HasFrom d b) (some t))
    (hbehind : ¬ d.Lt e (d.secondAfterDate t.date)) :
    (s.instants d b e).ncard =
      s.timesBeyond d t.time + (s.instants d (d.secondAfterDate t.date) e).ncard := by
  have hunion : s.instants d b e =
      s.instantsOnDate d t ∪ s.instants d (d.secondAfterDate t.date) e := by
    ext v
    constructor
    · rintro ⟨hv, hbefore⟩
      rcases hv.not_lt_secondAfterDate ht with hdate | hleft
      · exact Or.inl ⟨hv.1, hv.2.1, hdate, mt (Direction.lt_timestamp_iff hdate).mpr (ht.2 v hv)⟩
      · exact Or.inr ⟨hleft, hbefore⟩
    · rintro (⟨hv, hnano, hdate, hbeyond⟩ | ⟨hleft, hbefore⟩)
      · have hstays := mt (Direction.lt_timestamp_iff hdate).mp hbeyond
        have hleaves := Direction.lt_secondAfterDate (d := d) hdate
        refine ⟨⟨hv, hnano, Direction.not_lt_trans hstays ht.1.2.2⟩, ?_⟩
        cases d <;> simp only [Direction.Lt] at hleaves hbehind ⊢ <;> omega
      · exact ⟨ht.1.of_secondAfterDate hleft, hbefore⟩
  have hdisjoint : Disjoint (s.instantsOnDate d t) (s.instants d (d.secondAfterDate t.date) e) :=
    Set.disjoint_left.mpr fun v hv hv' => Direction.ne_date_of_not_lt hv'.1.2.2 hv.2.2.1
  have hfinite := s.finite_instants d b e
  rw [hunion] at hfinite
  rw [hunion, Set.ncard_union_eq hdisjoint (hfinite.subset Set.subset_union_left)
    (s.finite_instants d _ e), ncard_instantsOnDate hs ht.1.1]

/-! ### The search -/

def where? (s : Schedule) (d : Direction) (accepts : Date → Bool) (fuel budget : Nat)
    (q : DateTime) : Option DateTime :=
  match d with
  | .forward => s.firstWhere? accepts fuel budget q
  | .backward => s.lastWhere? accepts fuel budget q

theorem where?_succ (accepts : Date → Bool) (fuel budget : Nat) (q : DateTime) :
    s.where? d accepts (fuel + 1) budget q = (s.near? d q).bind fun t =>
      if budget = 0 then none
      else if accepts t.date then some t
      else (d.afterDate? t.date).bind
        (s.where? d accepts fuel (budget - s.timesBeyond d t.time)) := by
  cases d <;> rfl

/-- A search from `q?` finds the nearest instant of the schedule from the second `b` on. -/
def SearchesFrom (s : Schedule) (d : Direction) (b : Int) (q? : Option DateTime) : Prop :=
  IsNearest d DateTime.timestamp (s.HasFrom d b) (q?.bind (s.near? d))

/-- An instant on an accepted date that a search from the second `b` meets. -/
def Accepted (s : Schedule) (d : Direction) (accepts : Date → Bool) (b : Int) (u : DateTime) :
    Prop :=
  s.HasFrom d b u ∧ accepts u.date = true

theorem accepted_secondAfterDate_iff {accepts : Date → Bool}
    (ht : IsNearest d DateTime.timestamp (s.HasFrom d b) (some t))
    (hrefused : accepts t.date ≠ true) :
    s.Accepted d accepts (d.secondAfterDate t.date) u ↔ s.Accepted d accepts b u := by
  constructor
  · exact fun hu => ⟨ht.1.of_secondAfterDate hu.1, hu.2⟩
  · exact fun hu => ⟨(hu.1.not_lt_secondAfterDate ht).resolve_left fun heq =>
      hrefused (heq ▸ hu.2), hu.2⟩

theorem eq_of_isNearest {P : DateTime → Prop} (hnano : ∀ v, P v → v.time.nanosecond = 0)
    (ht : IsNearest d DateTime.timestamp P (some t))
    (hu : IsNearest d DateTime.timestamp P (some u)) : t = u := by
  have htu := ht.2 u hu.1
  have hut := hu.2 t ht.1
  refine DateTime.eq_of_timestamp_eq ?_ ((hnano t ht.1).trans (hnano u hu.1).symm)
  cases d <;> simp only [Direction.Lt] at htu hut <;> omega

/-- Where the first instant is on an accepted date, it is the nearest one that counts. -/
theorem accepted_first {accepts : Date → Bool}
    (ht : IsNearest d DateTime.timestamp (s.HasFrom d b) (some t))
    (haccepts : accepts t.date = true) :
    IsNearest d DateTime.timestamp (s.Accepted d accepts b) (some t) ∧
      (s.instants d b t.timestamp).ncard = 0 := by
  have hempty : s.instants d b t.timestamp = ∅ :=
    Set.eq_empty_iff_forall_notMem.mpr fun v hv => ht.2 v hv.1 hv.2
  refine ⟨⟨⟨ht.1, haccepts⟩, fun v hv => ht.2 v hv.1⟩, ?_⟩
  rw [hempty, Set.ncard_empty]

/-- Where it is not, the search goes on behind its date with what is left of the budget. -/
theorem accepted_behind_iff (hs : s.IsRead steady) {accepts : Date → Bool}
    (ht : IsNearest d DateTime.timestamp (s.HasFrom d b) (some t))
    (hrefused : accepts t.date ≠ true) (budget : Nat) :
    (IsNearest d DateTime.timestamp (s.Accepted d accepts (d.secondAfterDate t.date)) (some u) ∧
        (s.instants d (d.secondAfterDate t.date) u.timestamp).ncard <
          budget - s.timesBeyond d t.time) ↔
      IsNearest d DateTime.timestamp (s.Accepted d accepts b) (some u) ∧
        (s.instants d b u.timestamp).ncard < budget := by
  have hiff : ∀ v, s.Accepted d accepts (d.secondAfterDate t.date) v ↔ s.Accepted d accepts b v :=
    fun v => accepted_secondAfterDate_iff ht hrefused
  constructor
  · rintro ⟨hu, hcount⟩
    rw [ncard_instants hs ht hu.1.1.2.2]
    exact ⟨hu.congr hiff, by omega⟩
  · rintro ⟨hu, hcount⟩
    have hnearest := hu.congr fun v => (hiff v).symm
    rw [ncard_instants hs ht hnearest.1.1.2.2] at hcount
    exact ⟨hnearest, by omega⟩

/-- The search finds the nearest instant on an accepted date, if fewer instants than the budget lie
in front of it, and nothing otherwise. -/
theorem where?_eq_some_iff (hs : s.IsRead steady) {accepts : Date → Bool}
    (hnext : ∀ t, s.includes t = true →
      s.SearchesFrom d (d.secondAfterDate t.date) (d.afterDate? t.date))
    {fuel budget : Nat} (hfuel : budget ≤ fuel) {q? : Option DateTime}
    (hq : s.SearchesFrom d b q?) :
    q?.bind (s.where? d accepts fuel budget) = some u ↔
      IsNearest d DateTime.timestamp (s.Accepted d accepts b) (some u) ∧
        (s.instants d b u.timestamp).ncard < budget := by
  induction fuel generalizing budget b q? with
  | zero =>
    have hnone : q?.bind (s.where? d accepts 0 budget) = none := by
      cases q? <;> cases d <;> rfl
    rw [hnone]
    exact ⟨nofun, fun h => absurd (h.2.trans_le hfuel) (Nat.not_lt_zero _)⟩
  | succ fuel ih =>
    have hstep : q?.bind (s.where? d accepts (fuel + 1) budget) =
        (q?.bind (s.near? d)).bind fun t =>
          if budget = 0 then none
          else if accepts t.date then some t
          else (d.afterDate? t.date).bind
            (s.where? d accepts fuel (budget - s.timesBeyond d t.time)) := by
      rw [Option.bind_assoc]
      exact congrArg _ (funext (where?_succ accepts fuel budget))
    rw [hstep]
    unfold SearchesFrom at hq
    cases hnear : q?.bind (s.near? d) with
    | none =>
      rw [hnear] at hq
      exact ⟨nofun, fun h => absurd h.1.1.1 (hq u)⟩
    | some t =>
      rw [hnear] at hq
      rw [Option.bind_some]
      by_cases hbudget : budget = 0
      · rw [if_pos hbudget]
        exact ⟨nofun, fun h => absurd h.2 (by omega)⟩
      · rw [if_neg hbudget]
        by_cases haccepts : accepts t.date = true
        · obtain ⟨hnearest, hcount⟩ := accepted_first hq haccepts
          rw [if_pos haccepts]
          constructor
          · rintro ⟨⟩
            exact ⟨hnearest, hcount.trans_lt (Nat.pos_of_ne_zero hbudget)⟩
          · rintro ⟨hu, -⟩
            rw [eq_of_isNearest (fun v hv => hv.1.2.1) hnearest hu]
        · have htimes := timesBeyond_pos (d := d) (Bool.and_eq_true _ _ ▸ hq.1.1).2
          rw [if_neg haccepts, ih (by omega) (hnext t hq.1.1)]
          exact accepted_behind_iff hs hq haccepts budget

end Schedule

end Placeholder.Temporal.Cron
