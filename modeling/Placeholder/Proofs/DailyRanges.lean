import Mathlib
import Placeholder.Proofs.TemporalLexemes
import Placeholder.Proofs.WrittenNumbers

/-!
# Ranges of the day

A range is the arc of the day from its start up to, but not including, its end. Counted in minutes
from the start, modulo the length of the day, its minutes are those below the length of the arc. So a
range and the range between the same times the other way round divide the day between them, and a
range between equal times is empty. The texts of ranges are two times with a dash between them.
-/

namespace Placeholder

/-! ### Traversals that can fail -/

theorem mapM_eq_ok_iff {ε α β : Type} {f : α → Except ε β} {xs : List α} {ys : List β} :
    xs.mapM f = .ok ys ↔ List.Forall₂ (fun x y => f x = .ok y) xs ys := by
  induction xs generalizing ys with
  | nil =>
    rw [List.mapM_nil, List.forall₂_nil_left_iff]
    exact ⟨fun h => (Except.ok.inj h).symm, fun h => by rw [h]; rfl⟩
  | cons x xs ih =>
    rw [List.mapM_cons, List.forall₂_cons_left_iff]
    simp only [← ih]
    constructor
    · intro h
      obtain ⟨y, hy, h⟩ := exists_of_bind_eq_ok h
      obtain ⟨rest, hrest, h⟩ := exists_of_bind_eq_ok h
      exact ⟨y, rest, hy, hrest, (Except.ok.inj h).symm⟩
    · rintro ⟨y, rest, hy, hrest, rfl⟩
      rw [hy, hrest]
      rfl

/-- A traversal fails exactly when one of its steps does. -/
theorem exists_mapM_eq_error_iff {ε α β : Type} {f : α → Except ε β} {xs : List α} :
    (∃ e, xs.mapM f = .error e) ↔ ∃ x ∈ xs, ∃ e, f x = .error e := by
  induction xs with
  | nil => exact iff_of_false (fun ⟨e, he⟩ => nomatch he) fun ⟨x, hx, _⟩ => nomatch hx
  | cons x xs ih =>
    rw [List.mapM_cons]
    cases hx : f x with
    | error e => exact iff_of_true ⟨e, rfl⟩ ⟨x, List.mem_cons_self, e, hx⟩
    | ok y =>
      have hrest : (∃ e, (Except.ok y >>= fun y => xs.mapM f >>= fun ys => pure (y :: ys)) =
          Except.error e) ↔ ∃ e, xs.mapM f = .error e := by
        cases xs.mapM f with
        | error e => exact iff_of_true ⟨e, rfl⟩ ⟨e, rfl⟩
        | ok ys => exact iff_of_false (fun ⟨e, he⟩ => nomatch he) fun ⟨e, he⟩ => nomatch he
      rw [hrest, ih]
      simp [hx]

namespace Temporal

open Text (natDigits padded)

/-! ### The texts of times -/

/-- A time as it may be written: the hour with one digit or two, the minute with two. -/
structure IsClock (hour minute : Nat) (cs : List Char) : Prop where
  hour_lt : hour < 24
  minute_lt : minute < 60
  text_eq : cs = natDigits hour ++ ':' :: padded 2 minute ∨ cs = padded 2 hour ++ ':' :: padded 2 minute

theorem isClock_clockText {hour minute : Nat} (hhour : hour < 24) (hminute : minute < 60) :
    IsClock hour minute (clockText hour minute).toList :=
  ⟨hhour, hminute, Or.inr String.toList_ofList⟩

/-- Digits in front of two more are read as a time when they are one or two. -/
theorem takeClock?_padded {digits : List Char} (hdigits : ∀ c ∈ digits, c.isDigit = true)
    (hlength : digits.length = 1 ∨ digits.length = 2) {hour minute : Nat}
    (hhour : Text.digitsValue digits = hour) (hlt : hour < 24) (hminute : minute < 60)
    (rest : List Char) :
    takeClock? (digits ++ ':' :: padded 2 minute ++ rest) = some (hour, minute, rest) := by
  have htwo : (padded 2 minute).length = 2 :=
    Text.length_padded (by decide) (show minute < 10 ^ 2 by omega)
  obtain ⟨a, b, hpair⟩ := List.length_eq_two.mp htwo
  have hdigit : ∀ c ∈ [a, b], c.isDigit = true := hpair ▸ Text.isDigit_of_mem_padded
  have hvalue : Text.digitsValue [a, b] = minute := by rw [← hpair, Text.digitsValue_padded]
  have htens : 10 * Text.digitValue a + Text.digitValue b = minute := by
    rw [← hvalue]
    simp [Text.digitsValue]
  have htake := takeClock?_written hdigits (a := a) (b := b)
    ⟨hlength, by rwa [hhour], hdigit a List.mem_cons_self, hdigit b (by simp), by omega⟩ rest
  rw [hpair, List.append_assoc]
  rw [hhour, hvalue] at htake
  exact htake

theorem IsClock.takeClock? {hour minute : Nat} {cs : List Char} (h : IsClock hour minute cs)
    (rest : List Char) : takeClock? (cs ++ rest) = some (hour, minute, rest) := by
  rcases h.text_eq with rfl | rfl
  · refine takeClock?_padded (fun _ => Text.isDigit_of_mem_natDigits) ?_
      (Text.digitsValue_natDigits hour) h.hour_lt h.minute_lt rest
    have hle : (natDigits hour).length ≤ 2 :=
      (Nat.length_toDigits_le_iff (by decide) (by decide)).mpr (by have := h.hour_lt; omega)
    have hpos : 0 < (natDigits hour).length := List.length_pos_iff.mpr Nat.toDigits_ne_nil
    omega
  · refine takeClock?_padded Text.isDigit_of_mem_padded (Or.inr ?_)
      (Text.digitsValue_padded 2 hour) h.hour_lt h.minute_lt rest
    exact Text.length_padded (by decide) (show hour < 10 ^ 2 by have := h.hour_lt; omega)

theorem exists_isClock_of_takeClock? {cs rest : List Char} {hour minute : Nat}
    (h : takeClock? cs = some (hour, minute, rest)) :
    ∃ front, IsClock hour minute front ∧ cs = front ++ rest := by
  obtain ⟨digits, a, b, hdigits, ⟨hlength, hhour, ha, hb, htens⟩, rfl, rfl, rfl⟩ :=
    exists_of_takeClock? h
  have hpair : padded [a, b].length (Text.digitsValue [a, b]) = [a, b] :=
    Text.padded_digitsValue (List.cons_ne_nil a [b]) (by simp [ha, hb])
  have hvalue : Text.digitsValue [a, b] = 10 * Text.digitValue a + Text.digitValue b := by
    simp [Text.digitsValue]
  have hunit := Text.digitValue_lt_ten hb
  refine ⟨digits ++ ':' :: [a, b], ⟨hhour, by omega, ?_⟩, by simp⟩
  rw [show padded 2 (Text.digitsValue [a, b]) = [a, b] from hpair]
  rcases hlength with hone | htwo
  · have hne : digits ≠ [] := List.ne_nil_of_length_pos (by omega)
    rw [Text.natDigits_digitsValue hne hdigits fun hzero => ?_]
    · exact Or.inl rfl
    · obtain ⟨rest, rfl⟩ := List.head?_eq_some_iff.mp hzero
      rw [List.length_cons, Nat.add_eq_right, List.length_eq_zero_iff] at hone
      rw [hone]
  · have hne : digits ≠ [] := List.ne_nil_of_length_pos (by omega)
    have hpadded := Text.padded_digitsValue hne hdigits
    rw [htwo] at hpadded
    rw [hpadded]
    exact Or.inr rfl

theorem takeClockPair?_eq_some_iff {cs : List Char} {h m h' m' : Nat} :
    takeClockPair? cs = some ((h, m), (h', m'), []) ↔
      ∃ front back, IsClock h m front ∧ IsClock h' m' back ∧ cs = front ++ '-' :: back := by
  constructor
  · intro hpair
    unfold takeClockPair? at hpair
    split at hpair
    · rename_i hour minute tail hfirst
      obtain ⟨⟨hour', minute', left⟩, hsecond, heq⟩ := Option.map_eq_some_iff.mp hpair
      cases heq
      obtain ⟨front, hfront, hcs⟩ := exists_isClock_of_takeClock? hfirst
      obtain ⟨back, hback, htail⟩ := exists_isClock_of_takeClock? hsecond
      rw [List.append_nil] at htail
      exact ⟨front, back, hfront, hback, by rw [hcs, htail]⟩
    · cases hpair
  · rintro ⟨front, back, hfront, hback, rfl⟩
    have hsecond := hback.takeClock? []
    rw [List.append_nil] at hsecond
    rw [takeClockPair?, hfront.takeClock? ('-' :: back)]
    simp only [hsecond, Option.map_some]

namespace TimeRange

open Calendar (DateTime)

/-! ### The texts of ranges -/

/-- The text is two times with a dash between them, and the range runs from the one to the other. -/
inductive Written : List Char → TimeRange → Prop where
  | between {h m h' m' : Nat} {front back : List Char} (start : IsClock h m front)
      (stop : IsClock h' m' back) :
      Written (front ++ '-' :: back)
        ⟨clockText h m, clockText h' m', 60 * h + m, 60 * h' + m'⟩

theorem clock_clockText {hour minute : Nat} (hhour : hour < 24) (hminute : minute < 60) :
    clock (clockText hour minute) = .ok (60 * hour + minute) := by
  have htake := (isClock_clockText hhour hminute).takeClock? []
  rw [List.append_nil] at htake
  rw [clock, readClock?, htake]

theorem between_clockText {h m h' m' : Nat} (hh : h < 24) (hm : m < 60) (hh' : h' < 24)
    (hm' : m' < 60) : between (clockText h m) (clockText h' m') =
      .ok ⟨clockText h m, clockText h' m', 60 * h + m, 60 * h' + m'⟩ := by
  rw [between, clock_clockText hh hm, clock_clockText hh' hm']
  rfl

theorem read_of_written {spec : String} {r : TimeRange} (h : Written (Text.trim spec.toList) r) :
    read spec = .ok r := by
  generalize htrim : Text.trim spec.toList = cs at h
  cases h with
  | between start stop =>
    have hpair := takeClockPair?_eq_some_iff.mpr ⟨_, _, start, stop, rfl⟩
    rw [read, htrim, hpair]
    exact between_clockText start.hour_lt start.minute_lt stop.hour_lt stop.minute_lt

/-- A text that is trimmed to two times is read as a range, and every other text is refused. -/
theorem read_cases (spec : String) :
    (∃ r, Written (Text.trim spec.toList) r ∧ read spec = .ok r) ∨
      read spec = .error (.invalidTimeRange (Text.trimmed spec)) := by
  cases hpair : takeClockPair? (Text.trim spec.toList) with
  | none =>
    right
    rw [read, hpair]
    rfl
  | some found =>
    obtain ⟨⟨h, m⟩, ⟨h', m'⟩, rest⟩ := found
    cases rest with
    | nil =>
      left
      obtain ⟨front, back, hfront, hback, htrim⟩ := takeClockPair?_eq_some_iff.mp hpair
      have hwritten := Written.between hfront hback
      rw [← htrim] at hwritten
      exact ⟨_, hwritten, read_of_written hwritten⟩
    | cons c rest =>
      right
      rw [read, hpair]
      rfl

theorem read_eq_ok_iff {spec : String} {r : TimeRange} :
    read spec = .ok r ↔ Written (Text.trim spec.toList) r := by
  refine ⟨fun h => ?_, read_of_written⟩
  rcases read_cases spec with ⟨r', hwritten, hread⟩ | hread
  · rw [hread] at h
    cases h
    exact hwritten
  · rw [hread] at h
    cases h

/-- The range between the same times the other way round. -/
def flip (r : TimeRange) : TimeRange :=
  ⟨r.stop, r.start, r.stopMinute, r.startMinute⟩

theorem toList_dashed (a b : String) : (a ++ "-" ++ b).toList = a.toList ++ '-' :: b.toList := by
  have hdash : "-".toList = ['-'] := by decide
  rw [String.toList_append, String.toList_append, hdash, List.append_assoc,
    List.singleton_append]

theorem trimmed_clockTexts (hour minute hour' minute' : Nat) :
    Text.Trimmed (clockText hour minute ++ "-" ++ clockText hour' minute').toList := by
  have hvisible : ∀ n, ∀ c ∈ padded 2 n, Text.isBlank c = false := fun n c hc =>
    Text.not_blank_of_isDigit (Text.isDigit_of_mem_padded c hc)
  refine Text.Visible.trimmed ⟨by simp, fun c hc => ?_⟩
  simp only [toList_dashed, clockText, String.toList_ofList, List.mem_append,
    List.mem_cons] at hc
  rcases hc with (hc | rfl | hc) | rfl | hc | rfl | hc
  · exact hvisible hour c hc
  · decide
  · exact hvisible minute c hc
  · decide
  · exact hvisible hour' c hc
  · decide
  · exact hvisible minute' c hc

/-- The ends of a range written out are a text of it, and the other way round one of its flip. -/
theorem Written.read_ends {cs : List Char} {r : TimeRange} (h : Written cs r) :
    read (r.start ++ "-" ++ r.stop) = .ok r ∧ read (r.stop ++ "-" ++ r.start) = .ok r.flip := by
  obtain ⟨start, stop⟩ := h
  have hstart := isClock_clockText start.hour_lt start.minute_lt
  have hstop := isClock_clockText stop.hour_lt stop.minute_lt
  constructor
  · refine read_of_written ?_
    rw [trimmed_clockTexts, toList_dashed]
    exact .between hstart hstop
  · refine read_of_written ?_
    rw [trimmed_clockTexts, toList_dashed]
    exact .between hstop hstart

/-! ### Arcs of the day -/

theorem Written.minutes_lt {cs : List Char} {r : TimeRange} (h : Written cs r) :
    r.startMinute < 1440 ∧ r.stopMinute < 1440 := by
  obtain ⟨start, stop⟩ := h
  have hstart := start.hour_lt
  have hstartMinute := start.minute_lt
  have hstop := stop.hour_lt
  have hstopMinute := stop.minute_lt
  constructor <;> dsimp only <;> omega

theorem minuteOfDay_lt (t : DateTime) : t.time.minuteOfDay < 1440 := by
  obtain ⟨hhour, hminute, -, -⟩ := t.time.exists_time
  rw [Calendar.Time.minuteOfDay]
  omega

/-- The minutes of a range, counted from its start around the day, are those below its length. -/
theorem contains_iff_arc {r : TimeRange} (hstart : r.startMinute < 1440)
    (hstop : r.stopMinute < 1440) (t : DateTime) :
    r.contains t = true ↔ ((t.time.minuteOfDay : Int) - r.startMinute) % 1440 <
      ((r.stopMinute : Int) - r.startMinute) % 1440 := by
  have hday := minuteOfDay_lt t
  rw [contains, isOvernight]
  by_cases hovernight : r.stopMinute < r.startMinute
  · simp only [hovernight, decide_true, if_true, Bool.or_eq_true, decide_eq_true_eq]
    omega
  · simp only [hovernight, decide_false, Bool.false_eq_true, if_false, Bool.and_eq_true,
      decide_eq_true_eq]
    omega

/-- A range and its flip divide the day between them. -/
theorem contains_flip {r : TimeRange} (hstart : r.startMinute < 1440) (hstop : r.stopMinute < 1440)
    (hne : r.startMinute ≠ r.stopMinute) (t : DateTime) : r.flip.contains t = !r.contains t := by
  have hday := minuteOfDay_lt t
  have hrange := contains_iff_arc hstart hstop t
  have hflip : r.flip.contains t = true ↔ ((t.time.minuteOfDay : Int) - r.stopMinute) % 1440 <
      ((r.startMinute : Int) - r.stopMinute) % 1440 :=
    contains_iff_arc (r := r.flip) hstop hstart t
  rw [Bool.eq_iff_iff, Bool.not_eq_true', ← Bool.not_eq_true, hflip, hrange]
  omega

theorem contains_of_eq {r : TimeRange} (heq : r.startMinute = r.stopMinute) (t : DateTime) :
    r.contains t = false := by
  rw [contains, isOvernight, heq]
  simp

/-! ### Lists of ranges -/

/-- The texts between the commas of a list, without the blank ones. -/
def entries (specs : String) : List String :=
  (Text.splitString ',' specs).filter fun entry => !(Text.trim entry.toList).isEmpty

theorem read_trimmed (cs : List Char) :
    read (String.ofList (Text.trim cs)) = read (String.ofList cs) := by
  rw [read, read, String.toList_ofList, String.toList_ofList, Text.trim_trim]

theorem readList_eq_mapM (specs : String) : readList specs = (entries specs).mapM read := by
  have hentries : entries specs =
      ((Text.splitOn ',' specs.toList).filter fun cs => !(Text.trim cs).isEmpty).map
        String.ofList := by
    rw [entries, Text.splitString, List.filter_map]
    simp only [Function.comp_def, String.toList_ofList]
  rw [readList, hentries, List.filter_map, List.mapM_map, List.mapM_map]
  simp only [Function.comp_def, read_trimmed]

theorem anyContains_iff {specs : String} {rs : List TimeRange} (h : readList specs = .ok rs)
    (t : DateTime) :
    anyContains rs t = true ↔
      ∃ entry ∈ entries specs, ∃ r, read entry = .ok r ∧ r.contains t = true := by
  rw [readList_eq_mapM, mapM_eq_ok_iff] at h
  rw [anyContains, List.any_eq_true]
  generalize entries specs = es at h
  induction h with
  | nil => simp
  | cons hread _ ih => simp [ih, hread]

/-- Exactly the texts of two times are read as a range, which is written in full by its ends and is
an arc of the day; its flip is the rest of the day, unless both are empty. A list is read when each
of its entries is, and holds what one of them holds. -/
theorem ranges_are_arcs :
    (∀ spec r, read spec = .ok r ↔ Written (Text.trim spec.toList) r) ∧
      (∀ spec, (∀ r, ¬ Written (Text.trim spec.toList) r) →
        read spec = .error (.invalidTimeRange (Text.trimmed spec))) ∧
      (∀ spec r, read spec = .ok r →
        read (r.start ++ "-" ++ r.stop) = .ok r ∧ read (r.stop ++ "-" ++ r.start) = .ok r.flip ∧
          (∀ t, r.contains t = true ↔ ((t.time.minuteOfDay : Int) - r.startMinute) % 1440 <
            ((r.stopMinute : Int) - r.startMinute) % 1440) ∧
          (r.startMinute ≠ r.stopMinute → ∀ t, r.flip.contains t = !r.contains t) ∧
          (r.startMinute = r.stopMinute →
            ∀ t, r.contains t = false ∧ r.flip.contains t = false)) ∧
      (∀ specs, (∃ e, readList specs = .error e) ↔
        ∃ entry ∈ entries specs, ∃ e, read entry = .error e) ∧
      (∀ specs rs, readList specs = .ok rs →
        List.Forall₂ (fun entry r => read entry = .ok r) (entries specs) rs ∧
          ∀ t, anyContains rs t = true ↔
            ∃ entry ∈ entries specs, ∃ r, read entry = .ok r ∧ r.contains t = true) ∧
      ∀ rs t, anyContains rs t = true ↔ ∃ r ∈ rs, r.contains t = true := by
  refine ⟨fun spec r => read_eq_ok_iff, fun spec hnot => ?_, fun spec r hread => ?_,
    fun specs => ?_, fun specs rs hread => ⟨?_, anyContains_iff hread⟩,
    fun rs t => List.any_eq_true⟩
  · rcases read_cases spec with ⟨r, hwritten, -⟩ | hread
    · exact absurd hwritten (hnot r)
    · exact hread
  · have hwritten := read_eq_ok_iff.mp hread
    obtain ⟨hends, hflip⟩ := hwritten.read_ends
    obtain ⟨hstart, hstop⟩ := hwritten.minutes_lt
    exact ⟨hends, hflip, contains_iff_arc hstart hstop, contains_flip hstart hstop,
      fun heq t => ⟨contains_of_eq heq t, contains_of_eq (r := r.flip) heq.symm t⟩⟩
  · rw [readList_eq_mapM, exists_mapM_eq_error_iff]
  · rwa [readList_eq_mapM, mapM_eq_ok_iff] at hread

def nights : TimeRange :=
  ⟨"22:00", "06:05", 1320, 365⟩

/-- A range past midnight, in minutes from its start: 23:30 is the ninetieth of 485. -/
theorem contains_nights :
    read " 22:00-6:05 " = .ok nights ∧ read "22:00-06:05" = .ok nights ∧
      (∀ t : DateTime, t.time.minuteOfDay = 1410 → nights.contains t = true) ∧
      (∀ t, nights.flip.contains t = !nights.contains t) ∧
      ∃ e, readList "08:00-12:00, ,25:00-26:00" = .error e := by
  have hread : read " 22:00-6:05 " = .ok nights := by decide +kernel
  obtain ⟨-, -, harc, hlist, -⟩ := ranges_are_arcs
  obtain ⟨hends, -, hcontains, hflip, -⟩ := harc _ _ hread
  have hclock : nights.start ++ "-" ++ nights.stop = "22:00-06:05" := by decide
  refine ⟨hread, hclock ▸ hends, fun t ht => ?_, hflip (by decide), (hlist _).mpr ?_⟩
  · rw [hcontains, ht]
    decide
  · exact ⟨"25:00-26:00", by decide +kernel, _, by rfl⟩

end TimeRange

end Temporal

end Placeholder
