import Mathlib
import Placeholder.Proofs.CalendarOrder
import Placeholder.Temporal.Cron.Schedule

/-!
# The search through a schedule

The search forward and the search backward find the nearest instant of a schedule on their side of a
bound. Each level of the search fixes one unit of time: the values that it tries are in the order of
the search, and only the value of the bound itself hands the bound on to the levels below.
-/

namespace Placeholder.Temporal.Cron

open Calendar

inductive Direction where
  | forward
  | backward

namespace Direction

/-- The order in which a search in this direction meets numbers. -/
def Lt : Direction → Int → Int → Prop
  | forward, a, b => a < b
  | backward, a, b => b < a

def order (d : Direction) (values : List Nat) : List Nat :=
  match d with
  | forward => values
  | backward => values.reverse

/-- Whether a search that starts at `bound` meets `v`. -/
def meets (d : Direction) (bound v : Int) : Bool :=
  match d with
  | forward => bound ≤ v
  | backward => v ≤ bound

variable {d : Direction} {a b : Int}

theorem Lt.asymm (h : d.Lt a b) : ¬ d.Lt b a := by
  cases d <;> simp only [Lt] at h ⊢ <;> omega

theorem meets_iff : d.meets a b = true ↔ ¬ d.Lt b a := by
  cases d <;> simp [meets, Lt]

theorem meets_iff_eq_or : d.meets a b = true ↔ b = a ∨ d.Lt a b := by
  cases d <;> simp only [meets, Lt, decide_eq_true_eq] <;> omega

@[simp] theorem mem_order {values : List Nat} {v : Nat} : v ∈ d.order values ↔ v ∈ values := by
  cases d <;> simp [order]

theorem pairwise_order {values : List Nat} (h : values.Pairwise (· < ·)) :
    (d.order values).Pairwise fun v w : Nat => d.Lt v w := by
  cases d with
  | forward => simpa [order, Lt] using h
  | backward => simpa [order, Lt, List.pairwise_reverse] using h

end Direction

/-! ### Nearest values -/

section

variable {α : Type} {d : Direction} {key : α → Int} {digit : α → Nat} {P Q S T : α → Prop}

/-- The answer of a search for the nearest value with `P`: no value with `P` is met before it, and
nothing is found only where there is none. -/
def IsNearest (d : Direction) (key : α → Int) (P : α → Prop) : Option α → Prop
  | some a => P a ∧ ∀ b, P b → ¬ d.Lt (key b) (key a)
  | none => ∀ b, ¬ P b

theorem IsNearest.congr {x : Option α} (h : IsNearest d key P x) (hiff : ∀ a, P a ↔ Q a) :
    IsNearest d key Q x := by
  have heq : P = Q := funext fun a => propext (hiff a)
  rwa [← heq]

theorem IsNearest.or {x y : Option α} (hx : IsNearest d key P x) (hy : IsNearest d key Q y)
    (hkey : ∀ a b, P a → Q b → d.Lt (key a) (key b)) :
    IsNearest d key (fun a => P a ∨ Q a) (x.or y) := by
  cases x with
  | some a =>
    refine ⟨Or.inl hx.1, fun b hb => ?_⟩
    rcases hb with hb | hb
    · exact hx.2 b hb
    · exact (hkey a b hx.1 hb).asymm
  | none => exact hy.congr fun a => ⟨Or.inr, fun h => h.resolve_left (hx a)⟩

theorem isNearest_of_iff {x : Option α} (h : ∀ a, x = some a ↔ P a) : IsNearest d key P x := by
  cases x with
  | some a =>
    refine ⟨(h a).mp rfl, fun b hb => ?_⟩
    cases (h b).mpr hb
    exact fun hlt => hlt.asymm hlt
  | none => exact fun b hb => Option.some_ne_none b ((h b).mpr hb).symm

theorem isNearest_findSome? {values : List Nat} {attempt : Nat → Option α}
    (hsorted : values.Pairwise fun v w : Nat => d.Lt v w)
    (hkey : ∀ a b, S a → S b → d.Lt (digit a) (digit b) → d.Lt (key a) (key b))
    (hattempt : ∀ v, IsNearest d key (fun a => S a ∧ digit a = v) (attempt v)) :
    IsNearest d key (fun a => S a ∧ digit a ∈ values) (values.findSome? attempt) := by
  induction values with
  | nil => simp [IsNearest]
  | cons v vs ih =>
    obtain ⟨hv, hvs⟩ := List.pairwise_cons.mp hsorted
    have hrest := ih hvs
    have hor := (hattempt v).or hrest fun a b ⟨ha, hdigit⟩ ⟨hb, hmem⟩ =>
      hkey a b ha hb (hdigit ▸ hv _ hmem)
    have hcons : (v :: vs).findSome? attempt = (attempt v).or (vs.findSome? attempt) := by
      rw [List.findSome?_cons]
      cases attempt v <;> rfl
    rw [hcons]
    refine hor.congr fun a => ?_
    rw [List.mem_cons, and_or_left]

/-- Only the first of the values that are tried keeps to the bound `T` of the levels below. -/
theorem isNearest_tryEach {values : List Nat} {tight : Bool} {attempt : Bool → Nat → Option α}
    (hsorted : values.Pairwise fun v w : Nat => d.Lt v w)
    (hkey : ∀ a b, S a → S b → d.Lt (digit a) (digit b) → d.Lt (key a) (key b))
    (htight : tight = true → ∀ v, values.head? = some v →
      IsNearest d key (fun a => S a ∧ digit a = v ∧ T a) (attempt true v))
    (hloose : ∀ v, IsNearest d key (fun a => S a ∧ digit a = v) (attempt false v)) :
    IsNearest d key (fun a => S a ∧ digit a ∈ values ∧
      (tight = true → values.head? = some (digit a) → T a)) (tryEach values tight attempt) := by
  cases values with
  | nil => simp [IsNearest, tryEach]
  | cons v vs =>
    obtain ⟨hv, hvs⟩ := List.pairwise_cons.mp hsorted
    have hfirst : IsNearest d key (fun a => S a ∧ digit a = v ∧ (tight = true → T a))
        (attempt tight v) := by
      cases tight with
      | false => exact (hloose v).congr fun a => by simp
      | true => exact (htight rfl v rfl).congr fun a => by simp
    have hrest := isNearest_findSome? hvs hkey hloose
    have hor := hfirst.or hrest fun a b ⟨ha, hdigit, _⟩ ⟨hb, hmem⟩ =>
      hkey a b ha hb (hdigit ▸ hv _ hmem)
    refine hor.congr fun a => ?_
    have hlater : digit a ∈ vs → v ≠ digit a := fun hmem heq =>
      have hlt := hv _ hmem
      (heq ▸ hlt).asymm (heq ▸ hlt)
    rw [List.mem_cons, List.head?_cons, Option.some.injEq]
    constructor
    · rintro (⟨ha, hdigit, hbound⟩ | ⟨ha, hmem⟩)
      · exact ⟨ha, Or.inl hdigit, fun ht _ => hbound ht⟩
      · exact ⟨ha, Or.inr hmem, fun _ heq => absurd heq (hlater hmem)⟩
    · rintro ⟨ha, hdigit | hmem, hbound⟩
      · exact Or.inl ⟨ha, hdigit, fun ht => hbound ht hdigit.symm⟩
      · exact Or.inr ⟨ha, hmem⟩

theorem head?_eq_bound {candidates : List Nat} {bound : Nat}
    (hsorted : candidates.Pairwise fun v w : Nat => d.Lt v w) (hin : bound ∈ candidates)
    (hmeets : ∀ v ∈ candidates, d.meets bound v = true) : candidates.head? = some bound := by
  obtain ⟨v, vs, rfl⟩ := List.exists_cons_of_ne_nil (List.ne_nil_of_mem hin)
  rcases List.mem_cons.mp hin with heq | hlater
  · rw [heq, List.head?_cons]
  · have hlt := (List.pairwise_cons.mp hsorted).1 _ hlater
    exact absurd hlt (Direction.meets_iff.mp (hmeets v List.mem_cons_self))

/-- One level of a search: of its `values` it tries those that a tight search meets from its bound
on, and the levels below are tight exactly on the value of the bound. -/
theorem isNearest_level {values candidates : List Nat} {tight below : Bool} {bound : Nat}
    {attempt : Bool → Nat → Option α}
    (hsorted : candidates.Pairwise fun v w : Nat => d.Lt v w)
    (hmem : ∀ v, v ∈ candidates ↔ v ∈ values ∧ (tight = true → d.meets bound v = true))
    (hbelow : below = true ↔ tight = true ∧ bound ∈ values)
    (hkey : ∀ a b, S a → S b → d.Lt (digit a) (digit b) → d.Lt (key a) (key b))
    (htight : tight = true →
      IsNearest d key (fun a => S a ∧ digit a = bound ∧ T a) (attempt true bound))
    (hloose : ∀ v, IsNearest d key (fun a => S a ∧ digit a = v) (attempt false v)) :
    IsNearest d key (fun a => S a ∧ digit a ∈ values ∧
      (tight = true → d.Lt bound (digit a) ∨ digit a = bound ∧ T a))
      (tryEach candidates below attempt) := by
  -- Where the levels below are tight, the bound is a candidate, and none comes before it.
  have hhead : below = true → candidates.head? = some bound := by
    intro h
    obtain ⟨ht, hbound⟩ := hbelow.mp h
    refine head?_eq_bound hsorted ((hmem bound).mpr ⟨hbound, fun _ => ?_⟩) fun v hv =>
      ((hmem v).mp hv).2 ht
    exact Direction.meets_iff_eq_or.mpr (Or.inl rfl)
  have htry := isNearest_tryEach (T := T) hsorted hkey
    (fun h v hv => by
      rw [← Option.some.inj ((hhead h).symm.trans hv)]
      exact htight (hbelow.mp h).1) hloose
  refine htry.congr fun a => ?_
  rw [hmem, Direction.meets_iff_eq_or]
  constructor
  · rintro ⟨ha, ⟨hvalue, hmeets⟩, hfirst⟩
    refine ⟨ha, hvalue, fun ht => ?_⟩
    rcases hmeets ht with heq | hlt
    · have hdigit : digit a = bound := by exact_mod_cast heq
      have h := hbelow.mpr ⟨ht, hdigit ▸ hvalue⟩
      exact Or.inr ⟨hdigit, hfirst h (by rw [hhead h, hdigit])⟩
    · exact Or.inl hlt
  · rintro ⟨ha, hvalue, hbound⟩
    refine ⟨ha, ⟨hvalue, fun ht => ?_⟩, fun h hdigit => ?_⟩
    · rcases hbound ht with hlt | ⟨heq, _⟩
      · exact Or.inr hlt
      · exact Or.inl (by exact_mod_cast heq)
    · rcases hbound (hbelow.mp h).1 with hlt | ⟨_, hT⟩
      · rw [← Option.some.inj ((hhead h).symm.trans hdigit)] at hlt
        exact absurd hlt hlt.asymm
      · exact hT

end

/-! ### The search in either direction -/

/-- Tries the values of a level in a direction, from a bound on while the search is tight. -/
def Direction.tryFrom {α : Type} (d : Direction) (values : List Nat) (tight : Bool) (bound : Nat)
    (attempt : Bool → Nat → Option α) : Option α :=
  match d with
  | forward => Cron.tryFrom values tight bound attempt
  | backward => Cron.tryDownFrom values tight bound attempt

theorem isNearest_tryFrom {α : Type} {d : Direction} {key : α → Int} {digit : α → Nat}
    {S T : α → Prop} {values : List Nat} {tight : Bool} {bound : Nat}
    {attempt : Bool → Nat → Option α} (hsorted : values.Pairwise (· < ·))
    (hkey : ∀ a b, S a → S b → d.Lt (digit a) (digit b) → d.Lt (key a) (key b))
    (htight : tight = true →
      IsNearest d key (fun a => S a ∧ digit a = bound ∧ T a) (attempt true bound))
    (hloose : ∀ v, IsNearest d key (fun a => S a ∧ digit a = v) (attempt false v)) :
    IsNearest d key (fun a => S a ∧ digit a ∈ values ∧
      (tight = true → d.Lt bound (digit a) ∨ digit a = bound ∧ T a))
      (d.tryFrom values tight bound attempt) := by
  have heq : d.tryFrom values tight bound attempt =
      tryEach ((d.order values).filter fun v => !tight || d.meets bound v)
        (tight && values.contains bound) attempt := by
    cases d <;> cases tight <;>
      simp [Direction.tryFrom, tryFrom, tryDownFrom, Direction.order, Direction.meets]
  rw [heq]
  refine isNearest_level ((Direction.pairwise_order hsorted).filter _) (fun v => ?_) ?_ hkey htight
    hloose
  · rw [List.mem_filter, Direction.mem_order]
    cases tight <;> simp
  · simp

/-- The values of a schedule are listed without repetition, the smallest first, and its days are
counted from 1. -/
structure Schedule.Ascending (s : Schedule) : Prop where
  seconds : s.seconds.Pairwise (· < ·)
  minutes : s.minutes.Pairwise (· < ·)
  hours : s.hours.Pairwise (· < ·)
  days : s.days.Pairwise (· < ·)
  months : s.months.Pairwise (· < ·)
  years : s.years.Pairwise (· < ·)
  day_pos : ∀ n ∈ s.days, 1 ≤ n

namespace Direction

variable {d : Direction}

/-- The bound of a search over times of day, one unit of time after another. -/
theorem not_lt_secondOfDay {t bound : Time} : ¬ d.Lt t.secondOfDay bound.secondOfDay ↔
    d.Lt bound.hour t.hour ∨ t.hour = bound.hour ∧
      (d.Lt bound.minute t.minute ∨ t.minute = bound.minute ∧
        (d.Lt bound.second t.second ∨ t.second = bound.second ∧ True)) := by
  obtain ⟨-, hminute, hsecond, -⟩ := t.exists_time
  obtain ⟨-, hminute', hsecond', -⟩ := bound.exists_time
  cases d <;> simp only [Lt, Time.secondOfDay, and_true] <;> omega

theorem lt_secondOfDay {a b : Time} (h : d.Lt a.hour b.hour ∨ a.hour = b.hour ∧
    (d.Lt a.minute b.minute ∨ a.minute = b.minute ∧ d.Lt a.second b.second)) :
    d.Lt a.secondOfDay b.secondOfDay := by
  obtain ⟨-, hminute, hsecond, -⟩ := a.exists_time
  obtain ⟨-, hminute', hsecond', -⟩ := b.exists_time
  cases d <;> simp only [Lt, Time.secondOfDay] at h ⊢ <;> omega

theorem lt_dayNumber {a b : Date} (h : d.Lt a.year b.year ∨ a.year = b.year ∧
    (d.Lt a.month b.month ∨ a.month = b.month ∧ d.Lt a.day b.day)) :
    d.Lt a.dayNumber b.dayNumber := by
  cases d <;> simp only [Lt, Int.ofNat_lt] at h ⊢
  · exact Date.dayNumber_lt h
  · exact Date.dayNumber_lt (by unfold Date.Before; omega)

theorem lt_timestamp_of_date {a b : DateTime} (h : d.Lt a.date.dayNumber b.date.dayNumber) :
    d.Lt a.timestamp b.timestamp := by
  have ha := a.time.secondOfDay_lt
  have hb := b.time.secondOfDay_lt
  cases d <;> simp only [Lt, DateTime.timestamp] at h ⊢ <;> omega

theorem lt_timestamp {a b : DateTime} (h : d.Lt a.date.year b.date.year ∨
    a.date.year = b.date.year ∧ (d.Lt a.date.month b.date.month ∨
      a.date.month = b.date.month ∧ d.Lt a.date.day b.date.day)) :
    d.Lt a.timestamp b.timestamp :=
  lt_timestamp_of_date (lt_dayNumber h)

/-- The bound of a search over instants, one unit of time after another. -/
theorem not_lt_timestamp {u bound : DateTime} : ¬ d.Lt u.timestamp bound.timestamp ↔
    d.Lt bound.date.year u.date.year ∨ u.date.year = bound.date.year ∧
      (d.Lt bound.date.month u.date.month ∨ u.date.month = bound.date.month ∧
        (d.Lt bound.date.day u.date.day ∨ u.date.day = bound.date.day ∧
          ¬ d.Lt u.time.secondOfDay bound.time.secondOfDay)) := by
  constructor
  · intro h
    have hdate : ¬ d.Lt u.date.dayNumber bound.date.dayNumber := mt lt_timestamp_of_date h
    have hdigits := mt lt_dayNumber hdate
    by_cases heq : u.date = bound.date
    · refine Or.inr ⟨by rw [heq], Or.inr ⟨by rw [heq], Or.inr ⟨by rw [heq], ?_⟩⟩⟩
      cases d <;> simp only [Lt, DateTime.timestamp, heq] at h ⊢ <;> omega
    · have hne : ¬ (u.date.year = bound.date.year ∧ u.date.month = bound.date.month ∧
          u.date.day = bound.date.day) := fun ⟨hy, hm, hd⟩ =>
        heq (Date.eq_of_digits hy hm hd)
      cases d <;> simp only [Lt] at hdigits ⊢ <;> omega
  · rintro (hlt | ⟨hy, hlt | ⟨hm, hlt | ⟨hd, hlt⟩⟩⟩)
    · exact (lt_timestamp (Or.inl hlt)).asymm
    · exact (lt_timestamp (Or.inr ⟨hy.symm, Or.inl hlt⟩)).asymm
    · exact (lt_timestamp (Or.inr ⟨hy.symm, Or.inr ⟨hm.symm, hlt⟩⟩)).asymm
    · have heq : u.date = bound.date := Date.eq_of_digits hy hm hd
      cases d <;> simp only [Lt, DateTime.timestamp, heq] at hlt ⊢ <;> omega

end Direction

namespace Schedule

variable {d : Direction} {s : Schedule}

/-! ### Times of day -/

def time? (s : Schedule) (d : Direction) (tight : Bool) (bound : Time) : Option Time :=
  match d with
  | .forward => s.firstTime? tight bound
  | .backward => s.lastTime? tight bound

theorem time?_eq (s : Schedule) (d : Direction) (tight : Bool) (bound : Time) :
    s.time? d tight bound = d.tryFrom s.hours tight bound.hour fun tight h =>
      d.tryFrom s.minutes tight bound.minute fun tight m =>
        d.tryFrom s.seconds tight bound.second fun _ sec => Time.of? h m sec 0 := by
  cases d <;> rfl

theorem isNearest_second? (hs : s.Ascending) (tight : Bool) (bound : Time) (h m : Nat) :
    IsNearest d (fun t : Time => t.secondOfDay)
      (fun t => (t.nanosecond = 0 ∧ t.hour = h ∧ t.minute = m) ∧ t.second ∈ s.seconds ∧
        (tight = true → d.Lt bound.second t.second ∨ t.second = bound.second ∧ True))
      (d.tryFrom s.seconds tight bound.second fun _ sec => Time.of? h m sec 0) := by
  have hattempt : ∀ sec, IsNearest d (fun t : Time => t.secondOfDay)
      (fun t => (t.nanosecond = 0 ∧ t.hour = h ∧ t.minute = m) ∧ t.second = sec)
      (Time.of? h m sec 0) := fun sec => isNearest_of_iff fun t => by
    rw [Time.of?_eq_some_iff]
    tauto
  refine isNearest_tryFrom hs.seconds (fun a b ha hb hlt => ?_)
    (fun _ => (hattempt _).congr fun t => by tauto) hattempt
  obtain ⟨⟨-, ha, ha'⟩, -, hb, hb'⟩ := And.intro ha hb
  exact Direction.lt_secondOfDay (Or.inr ⟨ha.trans hb.symm, Or.inr ⟨ha'.trans hb'.symm, hlt⟩⟩)

theorem isNearest_minute? (hs : s.Ascending) (tight : Bool) (bound : Time) (h : Nat) :
    IsNearest d (fun t : Time => t.secondOfDay)
      (fun t => (t.nanosecond = 0 ∧ t.hour = h ∧ t.second ∈ s.seconds) ∧ t.minute ∈ s.minutes ∧
        (tight = true → d.Lt bound.minute t.minute ∨ t.minute = bound.minute ∧
          (d.Lt bound.second t.second ∨ t.second = bound.second ∧ True)))
      (d.tryFrom s.minutes tight bound.minute fun tight m =>
        d.tryFrom s.seconds tight bound.second fun _ sec => Time.of? h m sec 0) := by
  refine isNearest_tryFrom hs.minutes (fun a b ha hb hlt => ?_)
    (fun _ => (isNearest_second? hs true bound h bound.minute).congr fun t => by tauto)
    (fun m => (isNearest_second? hs false bound h m).congr fun t => by
      simp only [Bool.false_eq_true, false_imp_iff]
      tauto)
  exact Direction.lt_secondOfDay (Or.inr ⟨ha.2.1.trans hb.2.1.symm, Or.inl hlt⟩)

/-- The nearest time of day of a schedule, on the far side of the bound while the search is
tight. -/
theorem isNearest_time? (hs : s.Ascending) (tight : Bool) (bound : Time) :
    IsNearest d (fun t : Time => t.secondOfDay)
      (fun t => t.nanosecond = 0 ∧ s.includesTime t = true ∧
        (tight = true → ¬ d.Lt t.secondOfDay bound.secondOfDay)) (s.time? d tight bound) := by
  have hours : IsNearest d (fun t : Time => t.secondOfDay)
      (fun t => (t.nanosecond = 0 ∧ t.second ∈ s.seconds ∧ t.minute ∈ s.minutes) ∧
        t.hour ∈ s.hours ∧ (tight = true → d.Lt bound.hour t.hour ∨ t.hour = bound.hour ∧
          (d.Lt bound.minute t.minute ∨ t.minute = bound.minute ∧
            (d.Lt bound.second t.second ∨ t.second = bound.second ∧ True))))
      (s.time? d tight bound) := by
    rw [time?_eq]
    refine isNearest_tryFrom hs.hours (fun a b _ _ hlt => Direction.lt_secondOfDay (Or.inl hlt))
      (fun _ => (isNearest_minute? hs true bound bound.hour).congr fun t => by tauto)
      (fun h => (isNearest_minute? hs false bound h).congr fun t => by
        simp only [Bool.false_eq_true, false_imp_iff]
        tauto)
  refine hours.congr fun t => ?_
  rw [Direction.not_lt_secondOfDay]
  simp only [includesTime, Bool.and_eq_true, List.contains_iff_mem]
  tauto

/-! ### Dates and instants -/

def near? (s : Schedule) (d : Direction) (q : DateTime) : Option DateTime :=
  match d with
  | .forward => s.firstFrom? q
  | .backward => s.lastUpTo? q

def daysFrom (s : Schedule) (d : Direction) (length : Nat) (tight : Bool) (bound : Nat) :
    List Nat :=
  match d with
  | .forward => s.days.filter fun n => (if tight then min bound length else 1) ≤ n && n ≤ length
  | .backward => s.days.reverse.filter (· ≤ if tight then min bound length else length)

theorem near?_eq (s : Schedule) (d : Direction) (q : DateTime) :
    s.near? d q = tryEach ((d.order s.years).filter fun y => d.meets q.date.year y) true
      fun tight y => d.tryFrom s.months tight q.date.month fun tight m =>
        tryEach (s.daysFrom d (monthLength y m) tight q.date.day)
          (tight && s.days.contains q.date.day)
          fun tight n => s.onDate? y m n (s.time? d tight q.time) := by
  cases d <;> rfl

theorem isNearest_onDate? {P : Time → Prop} {time : Option Time}
    (h : IsNearest d (fun t : Time => t.secondOfDay) P time) (y m n : Nat) :
    IsNearest d DateTime.timestamp (fun u => u.date.year = y ∧ u.date.month = m ∧
      u.date.day = n ∧ s.hasWeekday u.date = true ∧ P u.time) (s.onDate? y m n time) := by
  have hof : ∀ date, Date.of? y m n = some date ↔
      date.year = y ∧ date.month = m ∧ date.day = n := fun date => Date.of?_eq_some_iff
  unfold onDate?
  cases hdate : Date.of? y m n with
  | none =>
    rintro u ⟨hy, hm, hn, -⟩
    rw [(hof u.date).mpr ⟨hy, hm, hn⟩] at hdate
    cases hdate
  | some date =>
    obtain ⟨hy, hm, hn⟩ := (hof date).mp hdate
    have hsame : ∀ u : DateTime, u.date.year = y → u.date.month = m → u.date.day = n →
        u.date = date := fun u huy hum hun =>
      Date.eq_of_digits (huy.trans hy.symm) (hum.trans hm.symm) (hun.trans hn.symm)
    rw [Option.bind_eq_bind, Option.bind_some]
    by_cases hweekday : s.hasWeekday date = true
    · rw [if_pos hweekday]
      cases time with
      | none => exact fun u hu => h u.time hu.2.2.2.2
      | some t =>
        refine ⟨⟨hy, hm, hn, hweekday, h.1⟩, ?_⟩
        rintro ⟨udate, utime⟩ ⟨huy, hum, hun, -, hP⟩
        cases hsame _ huy hum hun
        exact Direction.not_lt_timestamp.mpr
          (Or.inr ⟨rfl, Or.inr ⟨rfl, Or.inr ⟨rfl, h.2 utime hP⟩⟩⟩)
    · rw [if_neg hweekday]
      rintro u ⟨huy, hum, hun, hu, -⟩
      exact hweekday (hsame u huy hum hun ▸ hu)

theorem isNearest_day? (hs : s.Ascending) (tight : Bool) (q : DateTime) (y m : Nat)
    (htight : tight = true → q.date.year = y ∧ q.date.month = m) :
    IsNearest d DateTime.timestamp
      (fun u => (u.date.year = y ∧ u.date.month = m ∧ s.hasWeekday u.date = true ∧
        u.time.nanosecond = 0 ∧ s.includesTime u.time = true) ∧
        u.date.day ∈ s.days.filter (· ≤ monthLength y m) ∧
        (tight = true → d.Lt q.date.day u.date.day ∨ u.date.day = q.date.day ∧
          ¬ d.Lt u.time.secondOfDay q.time.secondOfDay))
      (tryEach (s.daysFrom d (monthLength y m) tight q.date.day)
        (tight && s.days.contains q.date.day)
        fun tight n => s.onDate? y m n (s.time? d tight q.time)) := by
  -- In the month of `q` its day exists, so cutting the bound at the length changes nothing.
  have hlength : tight = true → q.date.day ≤ monthLength y m := by
    intro ht
    obtain ⟨hy, hm⟩ := htight ht
    have hdate := q.date.exists_date
    rw [hy, hm] at hdate
    exact hdate.2.2.2.2.2
  have hsorted : (s.daysFrom d (monthLength y m) tight q.date.day).Pairwise
      fun v w : Nat => d.Lt v w := by
    cases d
    · exact (Direction.pairwise_order (d := .forward) hs.days).filter _
    · exact (Direction.pairwise_order (d := .backward) hs.days).filter _
  refine isNearest_level hsorted (fun v => ?_) ?_ (fun a b ha hb hlt => ?_) (fun _ => ?_)
    (fun n => ?_)
  · by_cases hv : v ∈ s.days
    · have hpos := hs.day_pos v hv
      cases tight with
      | false => cases d <;> simp [daysFrom, hv, hpos]
      | true =>
        have hbound := hlength rfl
        cases d with
        | forward => simp [daysFrom, Direction.meets, hv, hbound, and_comm]
        | backward =>
          have hlast : v ≤ q.date.day → v ≤ monthLength y m := fun h => h.trans hbound
          simpa [daysFrom, Direction.meets, hv, hbound] using hlast
    · cases d <;> simp [daysFrom, hv]
  · rw [Bool.and_eq_true, List.contains_iff_mem, List.mem_filter, decide_eq_true_eq]
    exact and_congr_right fun ht => (and_iff_left (hlength ht)).symm
  · exact Direction.lt_timestamp
      (Or.inr ⟨ha.1.trans hb.1.symm, Or.inr ⟨ha.2.1.trans hb.2.1.symm, hlt⟩⟩)
  · refine (isNearest_onDate? (isNearest_time? hs true q.time) y m q.date.day).congr fun u => ?_
    tauto
  · refine (isNearest_onDate? (isNearest_time? hs false q.time) y m n).congr fun u => ?_
    simp only [Bool.false_eq_true, false_imp_iff]
    tauto

theorem mem_days_filter {u : DateTime} {y m : Nat} (hy : u.date.year = y) (hm : u.date.month = m) :
    u.date.day ∈ s.days.filter (· ≤ monthLength y m) ↔ u.date.day ∈ s.days := by
  have hdate := u.date.exists_date
  rw [hy, hm] at hdate
  rw [List.mem_filter, decide_eq_true_eq]
  exact and_iff_left hdate.2.2.2.2.2

theorem isNearest_month? (hs : s.Ascending) (tight : Bool) (q : DateTime) (y : Nat)
    (htight : tight = true → q.date.year = y) :
    IsNearest d DateTime.timestamp
      (fun u => (u.date.year = y ∧ s.hasWeekday u.date = true ∧ u.date.day ∈ s.days ∧
        u.time.nanosecond = 0 ∧ s.includesTime u.time = true) ∧ u.date.month ∈ s.months ∧
        (tight = true → d.Lt q.date.month u.date.month ∨ u.date.month = q.date.month ∧
          (d.Lt q.date.day u.date.day ∨ u.date.day = q.date.day ∧
            ¬ d.Lt u.time.secondOfDay q.time.secondOfDay)))
      (d.tryFrom s.months tight q.date.month fun tight m =>
        tryEach (s.daysFrom d (monthLength y m) tight q.date.day)
          (tight && s.days.contains q.date.day)
          fun tight n => s.onDate? y m n (s.time? d tight q.time)) := by
  refine isNearest_tryFrom hs.months (fun a b ha hb hlt => ?_) (fun ht => ?_) (fun m => ?_)
  · exact Direction.lt_timestamp (Or.inr ⟨ha.1.trans hb.1.symm, Or.inl hlt⟩)
  · refine (isNearest_day? hs true q y q.date.month fun _ => ⟨htight ht, rfl⟩).congr fun u => ?_
    constructor
    · rintro ⟨⟨hy, hm, hweekday, htime⟩, hday, hbound⟩
      exact ⟨⟨hy, hweekday, (mem_days_filter hy hm).mp hday, htime⟩, hm, hbound rfl⟩
    · rintro ⟨⟨hy, hweekday, hday, htime⟩, hm, hbound⟩
      exact ⟨⟨hy, hm, hweekday, htime⟩, (mem_days_filter hy hm).mpr hday, fun _ => hbound⟩
  · refine (isNearest_day? hs false q y m nofun).congr fun u => ?_
    constructor
    · rintro ⟨⟨hy, hm, hweekday, htime⟩, hday, -⟩
      exact ⟨⟨hy, hweekday, (mem_days_filter hy hm).mp hday, htime⟩, hm⟩
    · rintro ⟨⟨hy, hweekday, hday, htime⟩, hm⟩
      exact ⟨⟨hy, hm, hweekday, htime⟩, (mem_days_filter hy hm).mpr hday, nofun⟩

/-- The years of the schedule do not mislead a search from `q`: the year of `q` is one of them, or
they all lie behind. -/
def Supports (s : Schedule) (d : Direction) (q : DateTime) : Prop :=
  (∃ y ∈ s.years, (y : Int) = q.date.year) ∨ ∀ y ∈ s.years, d.Lt y q.date.year

theorem includes_iff (u : DateTime) : s.includes u = true ↔
    (u.date.year.toNat : Int) = u.date.year ∧ u.date.year.toNat ∈ s.years ∧
      u.date.month ∈ s.months ∧ u.date.day ∈ s.days ∧ s.hasWeekday u.date = true ∧
        s.includesTime u.time = true := by
  have hyear : (s.years.any fun y => (y : Int) == u.date.year) = true ↔
      (u.date.year.toNat : Int) = u.date.year ∧ u.date.year.toNat ∈ s.years := by
    rw [List.any_eq_true]
    constructor
    · rintro ⟨y, hy, heq⟩
      have heq : (y : Int) = u.date.year := by simpa using heq
      rw [← heq]
      exact ⟨rfl, hy⟩
    · rintro ⟨heq, hy⟩
      exact ⟨_, hy, by simpa using heq⟩
  simp only [includes, includesDate, Bool.and_eq_true, hyear, List.contains_iff_mem, and_assoc]

theorem isNearest_year? (hs : s.Ascending) {q : DateTime} {bound : Nat} (hbound : bound ∈ s.years)
    (hq : (bound : Int) = q.date.year) :
    IsNearest d DateTime.timestamp
      (fun u => ((u.date.year.toNat : Int) = u.date.year ∧ u.date.month ∈ s.months ∧
        u.date.day ∈ s.days ∧ s.hasWeekday u.date = true ∧ u.time.nanosecond = 0 ∧
        s.includesTime u.time = true) ∧ u.date.year.toNat ∈ s.years ∧
        (true = true → d.Lt bound u.date.year.toNat ∨ u.date.year.toNat = bound ∧
          (d.Lt q.date.month u.date.month ∨ u.date.month = q.date.month ∧
            (d.Lt q.date.day u.date.day ∨ u.date.day = q.date.day ∧
              ¬ d.Lt u.time.secondOfDay q.time.secondOfDay))))
      (s.near? d q) := by
  rw [near?_eq]
  refine isNearest_level ((Direction.pairwise_order hs.years).filter _) (fun v => by simp [hq])
    (by simpa using hbound) (fun a b ha hb hlt => ?_) (fun _ => ?_) (fun y => ?_)
  · refine Direction.lt_timestamp (Or.inl ?_)
    rwa [ha.1, hb.1] at hlt
  · refine (isNearest_month? hs true q bound fun _ => hq.symm).congr fun u => ?_
    constructor
    · rintro ⟨⟨hy, hweekday, hday, htime⟩, hmonth, hafter⟩
      exact ⟨⟨by omega, hmonth, hday, hweekday, htime⟩, by omega, hafter rfl⟩
    · rintro ⟨⟨hy, hmonth, hday, hweekday, htime⟩, hdigit, hafter⟩
      exact ⟨⟨by omega, hweekday, hday, htime⟩, hmonth, fun _ => hafter⟩
  · refine (isNearest_month? hs false q y nofun).congr fun u => ?_
    constructor
    · rintro ⟨⟨hy, hweekday, hday, htime⟩, hmonth, -⟩
      exact ⟨⟨by omega, hmonth, hday, hweekday, htime⟩, by omega⟩
    · rintro ⟨⟨hy, hmonth, hday, hweekday, htime⟩, hdigit⟩
      exact ⟨⟨by omega, hweekday, hday, htime⟩, hmonth, nofun⟩

theorem near?_eq_none {q : DateTime} (h : ∀ y ∈ s.years, d.Lt y q.date.year) :
    s.near? d q = none := by
  have hnil : ((d.order s.years).filter fun y : Nat => d.meets q.date.year y) = [] := by
    rw [List.filter_eq_nil_iff]
    intro y hy
    rw [Direction.meets_iff, not_not]
    exact h y (Direction.mem_order.mp hy)
  rw [near?_eq, hnil]
  rfl

/-- The search finds the nearest instant of the schedule that does not lie before `q` in the
direction of the search. -/
theorem isNearest_near? (hs : s.Ascending) {q : DateTime} (hq : s.Supports d q) :
    IsNearest d DateTime.timestamp
      (fun u => s.includes u = true ∧ u.time.nanosecond = 0 ∧ ¬ d.Lt u.timestamp q.timestamp)
      (s.near? d q) := by
  rcases hq with ⟨bound, hbound, heq⟩ | hpast
  · refine (isNearest_year? hs hbound heq).congr fun u => ?_
    rw [includes_iff, Direction.not_lt_timestamp]
    constructor
    · rintro ⟨⟨hy, hmonth, hday, hweekday, hnano, htime⟩, hyears, hafter⟩
      refine ⟨⟨hy, hyears, hmonth, hday, hweekday, htime⟩, hnano, ?_⟩
      rcases hafter rfl with hlt | ⟨hdigit, hrest⟩
      · exact Or.inl (by rwa [hy, heq] at hlt)
      · exact Or.inr ⟨by omega, hrest⟩
    · rintro ⟨⟨hy, hyears, hmonth, hday, hweekday, htime⟩, hnano, hafter⟩
      refine ⟨⟨hy, hmonth, hday, hweekday, hnano, htime⟩, hyears, fun _ => ?_⟩
      rcases hafter with hlt | ⟨hyear, hrest⟩
      · exact Or.inl (by rwa [hy, heq])
      · exact Or.inr ⟨by omega, hrest⟩
  · rw [near?_eq_none hpast]
    rintro u ⟨hu, -, hafter⟩
    obtain ⟨hy, hyears, -⟩ := (includes_iff u).mp hu
    have hlt := hpast _ hyears
    rw [hy] at hlt
    exact hafter (Direction.lt_timestamp (Or.inl hlt))

end Schedule

end Placeholder.Temporal.Cron
