import Mathlib
import Placeholder.Proofs.ScheduleSearch
import Placeholder.Proofs.Searching
import Placeholder.Proofs.TemporalGrammar
import Placeholder.Proofs.Trimming
import Placeholder.Temporal.Cron

/-!
# What is known of a schedule that was read

The values of each field come in ascending order. A cron expression puts a zero in front of its five
fields, so every schedule of it has the second 0; it has others only when the minutes begin with a
character that carries on the item of the seconds.
-/

namespace Placeholder.Text

theorem mem_of_mem_words {cs w : List Char} (h : w ∈ words cs) {c : Char} (hc : c ∈ w) : c ∈ cs :=
  (mem_of_mem_splitBy (List.mem_filter.mp h).1 hc).1

theorem visible_of_mem_words {cs w : List Char} (h : w ∈ words cs) :
    w ≠ [] ∧ ∀ c ∈ w, isBlank c = false := by
  obtain ⟨hpiece, hne⟩ := List.mem_filter.mp h
  exact ⟨by simpa using hne, fun c hc => (mem_of_mem_splitBy hpiece hc).2⟩

/-- The first word of a text begins with the first character that is not blank. -/
theorem exists_words_cons {c : Char} (hc : isBlank c = false) (cs : List Char) :
    ∃ w ws, words (c :: cs) = (c :: w) :: ws := by
  unfold words
  rw [splitBy, if_neg (by rw [hc]; exact Bool.false_ne_true)]
  split
  · exact ⟨[], [], rfl⟩
  · rename_i w ws _
    exact ⟨w, ws.filter fun w => !w.isEmpty, rfl⟩

end Placeholder.Text

namespace Placeholder.Temporal.Cron

/-! ### Fields -/

theorem pairwise_fieldValues? {u : TimeUnit} {items : List Item} {values : List Nat}
    (h : fieldValues? u items = some values) : values.Pairwise (· < ·) := by
  obtain ⟨ps, -, rfl⟩ := Option.map_eq_some_iff.mp h
  exact (List.pairwise_lt_range' ..).filter _

theorem bounds_of_fieldValues? {u : TimeUnit} {items : List Item} {values : List Nat}
    (h : fieldValues? u items = some values) : ∀ n ∈ values, u.least ≤ n ∧ n ≤ u.greatest := by
  obtain ⟨ps, -, rfl⟩ := Option.map_eq_some_iff.mp h
  intro n hn
  obtain ⟨hleast, hlt⟩ := List.mem_range'_1.mp (List.mem_filter.mp hn).1
  omega

theorem takeField?_eq_some {u : TimeUnit} {open_ : Bool} {cs rest : List Char} {values : List Nat}
    (h : takeField? u open_ cs = some (values, rest)) :
    ∃ item tail, takeItem? open_ (skipBlanks cs) = some (item, tail) ∧
      fieldValues? u (item :: (takeItems open_ tail.length tail).1) = some values := by
  unfold takeField? at h
  obtain ⟨⟨item, tail⟩, hitem, h⟩ := Option.bind_eq_some_iff.mp h
  obtain ⟨found, hvalues, h⟩ := Option.bind_eq_some_iff.mp h
  cases h
  exact ⟨item, tail, hitem, hvalues⟩

/-- The fields of a schedule are read one after another; only the years may be missing. -/
theorem Schedule.ofFields?_eq_some {cs : List Char} {s : Schedule} (h : ofFields? cs = some s) :
    ∃ c₁ c₂ c₃ c₄ c₅ c₆, takeField? .second false cs = some (s.seconds, c₁) ∧
      takeField? .minute false c₁ = some (s.minutes, c₂) ∧
      takeField? .hour false c₂ = some (s.hours, c₃) ∧
      takeField? .day true c₃ = some (s.days, c₄) ∧
      takeField? .month false c₄ = some (s.months, c₅) ∧
      takeField? .weekday true c₅ = some (s.weekdays, c₆) ∧
      (s.years = TimeUnit.year.values ∨ ∃ c₇, takeField? .year false c₆ = some (s.years, c₇)) := by
  unfold ofFields? at h
  obtain ⟨⟨seconds, c₁⟩, hseconds, h⟩ := Option.bind_eq_some_iff.mp h
  obtain ⟨⟨minutes, c₂⟩, hminutes, h⟩ := Option.bind_eq_some_iff.mp h
  obtain ⟨⟨hours, c₃⟩, hhours, h⟩ := Option.bind_eq_some_iff.mp h
  obtain ⟨⟨days, c₄⟩, hdays, h⟩ := Option.bind_eq_some_iff.mp h
  obtain ⟨⟨months, c₅⟩, hmonths, h⟩ := Option.bind_eq_some_iff.mp h
  obtain ⟨⟨weekdays, c₆⟩, hweekdays, h⟩ := Option.bind_eq_some_iff.mp h
  refine ⟨c₁, c₂, c₃, c₄, c₅, c₆, ?_⟩
  dsimp only at h
  split at h
  · cases h
    exact ⟨hseconds, hminutes, hhours, hdays, hmonths, hweekdays, Or.inl rfl⟩
  · obtain ⟨⟨years, c₇⟩, hyears, h⟩ := Option.bind_eq_some_iff.mp h
    dsimp only at h
    split at h
    · cases h
      exact ⟨hseconds, hminutes, hhours, hdays, hmonths, hweekdays, Or.inr ⟨c₇, hyears⟩⟩
    · cases h

theorem Schedule.ascending_of_ofFields? {cs : List Char} {s : Schedule}
    (h : ofFields? cs = some s) : s.Ascending := by
  obtain ⟨_, _, _, _, _, _, hseconds, hminutes, hhours, hdays, hmonths, -, hyears⟩ :=
    ofFields?_eq_some h
  have hpairwise : ∀ {u open_ cs values rest}, takeField? u open_ cs = some (values, rest) →
      values.Pairwise (· < ·) := fun h => by
    obtain ⟨_, _, -, hvalues⟩ := takeField?_eq_some h
    exact pairwise_fieldValues? hvalues
  obtain ⟨_, _, -, hvalues⟩ := takeField?_eq_some hdays
  refine ⟨hpairwise hseconds, hpairwise hminutes, hpairwise hhours, hpairwise hdays,
    hpairwise hmonths, ?_, fun n hn => (bounds_of_fieldValues? hvalues n hn).1⟩
  rcases hyears with heq | ⟨_, hyears⟩
  · rw [heq]
    exact List.pairwise_lt_range' ..
  · exact hpairwise hyears

/-! ### The zero in front of five fields -/

theorem takeNumber?_zero (cs : List Char) :
    takeNumber? ('0' :: ' ' :: cs) = some (0, skipBlanks cs) := by
  simp [takeNumber?, skipBlanks, Text.digitsValue, Text.digitValue]

/-- Whether a text carries on the item in front of it. -/
def continuesItem (cs : List Char) : Bool :=
  cs.head?.any [',', '-', '/'].contains

def Span.BeginsAtZero (span : Span) : Prop :=
  span = .point 0 ∨ ∃ b, span = .range 0 b

/-- An item whose values of a second, as far as it has any, begin with 0. -/
def Item.BeginsAtZero (item : Item) : Prop :=
  ∀ p, item.progression? .second = some p → p.reaches 0 = true

theorem fst_of_properRange? {u : TimeUnit} {first last : Nat} {ends : Nat × Nat}
    (h : properRange? u first last = some ends) : ends.1 = first := by
  unfold properRange? at h
  split at h
  · cases h
    rfl
  · cases h

theorem reaches_zero (last step : Nat) : (⟨0, last, step⟩ : Progression).reaches 0 = true := by
  simp [Progression.reaches]

theorem Span.BeginsAtZero.span {span : Span} (h : span.BeginsAtZero) :
    (Item.span span).BeginsAtZero := by
  intro p hp
  obtain ⟨⟨first, last⟩, hends, rfl⟩ := Option.map_eq_some_iff.mp hp
  obtain rfl : first = 0 := by
    rcases h with rfl | ⟨b, rfl⟩ <;> exact fst_of_properRange? hends
  exact reaches_zero last 1

theorem Span.BeginsAtZero.stepped {span : Span} (h : span.BeginsAtZero) (step : Nat) :
    (Item.stepped span step).BeginsAtZero := by
  intro p hp
  rw [Item.progression?] at hp
  by_cases hstep : step = 0
  · rw [if_pos hstep] at hp
    cases hp
  · rw [if_neg hstep] at hp
    obtain ⟨⟨first, last⟩, hends, rfl⟩ := Option.map_eq_some_iff.mp hp
    obtain rfl : first = 0 := by
      rcases h with rfl | ⟨b, rfl⟩ <;> exact fst_of_properRange? hends
    exact reaches_zero last step

theorem takeSpan?_zero (cs : List Char) : ∃ span rest,
    takeSpan? false ('0' :: ' ' :: cs) = some (span, rest) ∧ span.BeginsAtZero := by
  change ∃ span rest, takeBounds? ('0' :: ' ' :: cs) = some (span, rest) ∧ _
  unfold takeBounds?
  cases hpair : takePair? takeNumber? ('0' :: ' ' :: cs) with
  | none => exact ⟨.point 0, skipBlanks cs, by rw [takeNumber?_zero], Or.inl rfl⟩
  | some found =>
    obtain ⟨⟨a, b⟩, rest⟩ := found
    refine ⟨.range a b, rest, rfl, Or.inr ⟨b, ?_⟩⟩
    unfold takePair? at hpair
    rw [takeNumber?_zero] at hpair
    split at hpair
    · rename_i first _ heq
      obtain ⟨_, -, hfound⟩ := Option.map_eq_some_iff.mp hpair
      have hzero : 0 = first := congrArg Prod.fst (Option.some.inj heq)
      cases hfound
      rw [← hzero]
    · cases hpair

theorem takeItem?_zero (cs : List Char) : ∃ item rest,
    takeItem? false ('0' :: ' ' :: cs) = some (item, rest) ∧ item.BeginsAtZero := by
  obtain ⟨span, rest, hspan, hzero⟩ := takeSpan?_zero cs
  unfold takeItem?
  rw [hspan]
  split
  · rename_i s after heq
    cases heq
    cases takeNumber? after with
    | none => exact ⟨_, _, rfl, hzero.span⟩
    | some found => exact ⟨_, _, rfl, hzero.stepped found.1⟩
  · rename_i s after _ heq
    cases heq
    exact ⟨_, _, rfl, hzero.span⟩
  · rename_i heq
    cases heq

/-- The first field of a text that begins with a zero alone has the value 0. -/
theorem zero_mem_of_takeField? {cs rest : List Char} {values : List Nat}
    (h : takeField? .second false ('0' :: ' ' :: cs) = some (values, rest)) : 0 ∈ values := by
  obtain ⟨item, tail, hitem, hvalues⟩ := takeField?_eq_some h
  obtain ⟨first, after, hfirst, hzero⟩ := takeItem?_zero cs
  have hskip : skipBlanks ('0' :: ' ' :: cs) = '0' :: ' ' :: cs := rfl
  rw [hskip, hfirst] at hitem
  cases hitem
  obtain ⟨ps, hps, rfl⟩ := Option.map_eq_some_iff.mp hvalues
  rw [List.mapM_cons] at hps
  obtain ⟨p, hp, hps⟩ := Option.bind_eq_some_iff.mp hps
  obtain ⟨others, -, hps⟩ := Option.bind_eq_some_iff.mp hps
  cases hps
  refine List.mem_filter.mpr ⟨by decide, ?_⟩
  rw [List.any_cons, hzero p hp, Bool.true_or]

theorem takeItem?_zero_of_not_continuesItem {cs : List Char}
    (h : continuesItem (skipBlanks cs) = false) :
    takeItem? false ('0' :: ' ' :: cs) = some (.span (.point 0), skipBlanks cs) := by
  have hpair : takePair? takeNumber? ('0' :: ' ' :: cs) = none := by
    unfold takePair?
    rw [takeNumber?_zero]
    split
    · rename_i heq
      simp only [Option.some.injEq, Prod.mk.injEq] at heq
      simp [heq.2, continuesItem] at h
    · rfl
  have hspan : takeSpan? false ('0' :: ' ' :: cs) = some (.point 0, skipBlanks cs) := by
    change takeBounds? ('0' :: ' ' :: cs) = _
    simp only [takeBounds?, hpair, takeNumber?_zero]
  unfold takeItem?
  rw [hspan]
  split
  · rename_i heq
    simp only [Option.some.injEq, Prod.mk.injEq] at heq
    simp [heq.2, continuesItem] at h
  · rename_i heq
    cases heq
    rfl
  · rename_i heq
    cases heq

/-- Where nothing carries on the zero, it is the only value of the first field. -/
theorem eq_zero_of_takeField? {cs rest : List Char} {values : List Nat}
    (h : takeField? .second false ('0' :: ' ' :: cs) = some (values, rest))
    (hcs : continuesItem (skipBlanks cs) = false) : values = [0] := by
  obtain ⟨item, tail, hitem, hvalues⟩ := takeField?_eq_some h
  have hskip : skipBlanks ('0' :: ' ' :: cs) = '0' :: ' ' :: cs := rfl
  rw [hskip, takeItem?_zero_of_not_continuesItem hcs] at hitem
  cases hitem
  have hitems : (takeItems false (skipBlanks cs).length (skipBlanks cs)).1 = [] := by
    unfold takeItems
    split
    · rename_i heq
      simp [heq, continuesItem] at hcs
    · rfl
  rw [hitems] at hvalues
  exact (Option.some.inj hvalues).symm.trans (by decide)

theorem exists_of_shorthand {name text : String} (h : shorthands.lookup name = some text) :
    ∃ cs, text.toList = '0' :: ' ' :: '0' :: cs := by
  obtain ⟨front, back, hlist, -⟩ := List.lookup_eq_some_iff.mp h
  have hmem : (name, text) ∈ shorthands := by
    rw [hlist]
    simp
  simp only [shorthands, List.mem_cons, List.not_mem_nil, or_false, Prod.mk.injEq] at hmem
  rcases hmem with ⟨-, rfl⟩ | ⟨-, rfl⟩ | ⟨-, rfl⟩ | ⟨-, rfl⟩ | ⟨-, rfl⟩ <;> exact ⟨_, rfl⟩

/-! ### Cron expressions -/

theorem continuesItem_skipBlanks_append {cs : List Char} (hne : cs ≠ [])
    (hcs : ∀ c ∈ cs, Text.isBlank c = false) (rest : List Char) :
    continuesItem (skipBlanks (cs ++ rest)) = continuesItem cs := by
  obtain ⟨c, cs, rfl⟩ := List.exists_cons_of_ne_nil hne
  have hc := hcs c List.mem_cons_self
  have hspace : c ≠ ' ' := by
    rintro rfl
    exact absurd hc (by decide)
  have htab : c ≠ '\t' := by
    rintro rfl
    exact absurd hc (by decide)
  have hskip : skipBlanks (c :: cs ++ rest) = c :: (cs ++ rest) := by
    simp [skipBlanks, hspace, htab]
  rw [hskip]
  rfl

/-- What the reader ensures of a schedule; `steady` tells that nothing carries on the zero of the
seconds. -/
structure Schedule.IsRead (s : Schedule) (steady : Bool) : Prop where
  ascending : s.Ascending
  zero_mem : 0 ∈ s.seconds
  second_lt : ∀ second ∈ s.seconds, second < 60
  minute_lt : ∀ minute ∈ s.minutes, minute < 60
  hour_lt : ∀ hour ∈ s.hours, hour < 24
  year_bounds : ∀ year ∈ s.years, TimeUnit.year.least ≤ year ∧ year ≤ TimeUnit.year.greatest
  seconds_eq : steady = true → s.seconds = [0]

theorem Schedule.isRead_of_ofFields? {cs : List Char} {s : Schedule} {steady : Bool}
    (h : ofFields? ('0' :: ' ' :: cs) = some s)
    (hcs : steady = true → continuesItem (skipBlanks cs) = false) : s.IsRead steady := by
  obtain ⟨_, _, _, _, _, _, hseconds, hminutes, hhours, -, -, -, hyears⟩ := ofFields?_eq_some h
  have hbounds : ∀ {u open_ cs values rest}, takeField? u open_ cs = some (values, rest) →
      ∀ n ∈ values, u.least ≤ n ∧ n ≤ u.greatest := fun h => by
    obtain ⟨_, _, -, hvalues⟩ := takeField?_eq_some h
    exact bounds_of_fieldValues? hvalues
  refine ⟨ascending_of_ofFields? h, zero_mem_of_takeField? hseconds,
    fun n hn => Nat.lt_succ_of_le (hbounds hseconds n hn).2,
    fun n hn => Nat.lt_succ_of_le (hbounds hminutes n hn).2,
    fun n hn => Nat.lt_succ_of_le (hbounds hhours n hn).2, ?_,
    fun hsteady => eq_zero_of_takeField? hseconds (hcs hsteady)⟩
  rcases hyears with heq | ⟨_, hyears⟩
  · intro n hn
    rw [heq] at hn
    obtain ⟨hleast, hlt⟩ := List.mem_range'_1.mp hn
    omega
  · exact hbounds hyears

/-- What the reader ensures of a pattern without an occurrence; `steady` tells that nothing carries
on the zero of the seconds. -/
structure Pattern.IsRead (p : Pattern) (steady : Bool) : Prop where
  occurrence_eq : p.occurrence = none
  ascending : p.schedule.Ascending
  zero_mem : 0 ∈ p.schedule.seconds
  second_lt : ∀ second ∈ p.schedule.seconds, second < 60
  seconds_eq : steady = true → p.schedule.seconds = [0]

theorem schedule_of_patternOf {minute hour day month weekday : List Char} {occurrence : Option Nat}
    {p : Pattern} (h : patternOf minute hour day month weekday occurrence = .ok p) (hne : minute ≠ [])
    (hminute : ∀ c ∈ minute, Text.isBlank c = false) :
    p.occurrence = occurrence ∧ p.schedule.IsRead (!continuesItem minute) := by
  unfold patternOf at h
  dsimp only at h
  split at h
  · rename_i s hs
    cases h
    have hfields : Schedule.ofFields? ('0' :: ' ' :: (minute ++ ' ' ::
        [' '].intercalate [hour, day, month, dayFieldNames weekday])) = some s := by
      rw [← hs]
      simp [List.intercalate, Schedule.read?]
    refine ⟨rfl, Schedule.isRead_of_ofFields? hfields fun h => ?_⟩
    rw [continuesItem_skipBlanks_append hne hminute]
    simpa using h
  · cases h

/-- The patterns of five fields share minute, hour and month, and the occurrence is that behind the
`#`, as far as they have one. -/
theorem exists_patternOf_of_patternsOf {minute hour day month weekday : List Char}
    {ps : List Pattern} (h : patternsOf minute hour day month weekday = .ok ps) :
    ∃ field occurrence, splitOccurrence weekday = .ok (field, occurrence) ∧
      ∀ p ∈ ps, ∃ day weekday kept, patternOf minute hour day month weekday kept = .ok p ∧
        (kept = none ∨ kept = occurrence) := by
  unfold patternsOf at h
  obtain ⟨⟨field, occurrence⟩, heq, h⟩ := exists_of_bind_eq_ok h
  refine ⟨field, occurrence, heq, fun p hp => ?_⟩
  dsimp only at h
  split at h
  · obtain ⟨byDay, hbyDay, h⟩ := exists_of_bind_eq_ok h
    obtain ⟨byWeekday, hbyWeekday, h⟩ := exists_of_bind_eq_ok h
    cases h
    rcases List.mem_pair.mp hp with rfl | rfl
    · exact ⟨_, _, _, hbyDay, Or.inl rfl⟩
    · exact ⟨_, _, _, hbyWeekday, Or.inr rfl⟩
  · obtain ⟨pattern, hpattern, h⟩ := exists_of_bind_eq_ok h
    cases h
    rw [List.mem_singleton.mp hp]
    exact ⟨_, _, _, hpattern, Or.inr rfl⟩

/-- An expression is a shorthand for six fields that begin with two zeros, or it has five fields. -/
theorem readPatterns_cases {cs : List Char} {ps : List Pattern} (h : readPatterns cs = .ok ps)
    (htrim : Text.Trimmed cs) :
    (∃ rest s, Schedule.ofFields? ('0' :: ' ' :: '0' :: rest) = some s ∧ ps = [⟨s, none⟩]) ∨
    ∃ minute hour day month weekday, Text.words cs = [minute, hour, day, month, weekday] ∧
      continuesItem cs = continuesItem minute ∧
      patternsOf minute hour day month weekday = .ok ps := by
  unfold readPatterns at h
  split at h
  · split at h
    · rename_i rest s hs
      cases h
      obtain ⟨text, hshorthand, hfields⟩ := Option.bind_eq_some_iff.mp hs
      obtain ⟨fields, htext⟩ := exists_of_shorthand hshorthand
      rw [htext] at hfields
      exact Or.inl ⟨fields, s, hfields, rfl⟩
    · cases h
  · split at h
    · rename_i minute hour day month weekday hwords
      refine Or.inr ⟨minute, hour, day, month, weekday, hwords, ?_, h⟩
      cases cs with
      | nil => cases hwords
      | cons c cs =>
        obtain ⟨w, ws, hfirst⟩ := Text.exists_words_cons htrim.head_not_blank cs
        rw [hfirst] at hwords
        cases hwords
        rfl
    · cases h

theorem readPatterns_of_read {text : String} {c : Cron} (h : read text = .ok c) :
    c.text.toList = Text.trim text.toList ∧ readPatterns c.text.toList = .ok c.patterns := by
  unfold read at h
  dsimp only at h
  split at h
  · rename_i ps hps
    cases h
    rw [String.toList_ofList]
    exact ⟨rfl, hps⟩
  · cases h

theorem read_cases {text : String} {c : Cron} (h : read text = .ok c) :
    (∃ rest s, Schedule.ofFields? ('0' :: ' ' :: '0' :: rest) = some s ∧
      c.patterns = [⟨s, none⟩]) ∨
    ∃ minute hour day month weekday,
      Text.words c.text.toList = [minute, hour, day, month, weekday] ∧
      continuesItem c.text.toList = continuesItem minute ∧
      patternsOf minute hour day month weekday = .ok c.patterns := by
  obtain ⟨htext, hpatterns⟩ := readPatterns_of_read h
  refine readPatterns_cases hpatterns ?_
  rw [htext]
  exact Text.trimmed_trim _

/-- What reading ensures of every schedule of an expression. -/
theorem schedule_of_read {text : String} {c : Cron} (h : read text = .ok c) :
    ∀ p ∈ c.patterns, p.schedule.IsRead (!continuesItem c.text.toList) := by
  rcases read_cases h with ⟨cs, s, hfields, hpatterns⟩ |
    ⟨minute, hour, day, month, weekday, hwords, hsame, hpatterns⟩
  · intro p hp
    rw [hpatterns] at hp
    rw [List.mem_singleton.mp hp]
    exact Schedule.isRead_of_ofFields? hfields fun _ => rfl
  · obtain ⟨hne, hvisible⟩ := Text.visible_of_mem_words (hwords ▸ List.mem_cons_self)
    obtain ⟨_, _, -, hread⟩ := exists_patternOf_of_patternsOf hpatterns
    intro p hp
    obtain ⟨_, _, _, hpattern, -⟩ := hread p hp
    rw [hsame]
    exact (schedule_of_patternOf hpattern hne hvisible).2

theorem occurrence_of_read {text : String} {c : Cron} (h : read text = .ok c)
    (hhash : '#' ∉ c.text.toList) : ∀ p ∈ c.patterns, p.occurrence = none := by
  rcases read_cases h with ⟨cs, s, -, hpatterns⟩ |
    ⟨minute, hour, day, month, weekday, hwords, -, hpatterns⟩
  · intro p hp
    rw [hpatterns] at hp
    rw [List.mem_singleton.mp hp]
  · have hweekday : weekday ∈ Text.words c.text.toList := by simp [hwords]
    have hunmarked : '#' ∉ weekday := fun hin => hhash (Text.mem_of_mem_words hweekday hin)
    have hsplit : splitOccurrence weekday = .ok (weekday, none) := by
      rw [splitOccurrence, Text.cut?_of_not_mem hunmarked]
    obtain ⟨hne, hvisible⟩ := Text.visible_of_mem_words (hwords ▸ List.mem_cons_self)
    obtain ⟨field, occurrence, heq, hread⟩ := exists_patternOf_of_patternsOf hpatterns
    cases hsplit.symm.trans heq
    intro p hp
    obtain ⟨_, _, kept, hpattern, hkept⟩ := hread p hp
    rw [(schedule_of_patternOf hpattern hne hvisible).1]
    exact or_self_iff.mp hkept

/-- What reading ensures of every pattern of an expression without `#`. -/
theorem isRead_of_read {text : String} {c : Cron} (h : read text = .ok c)
    (hhash : '#' ∉ text.toList) : ∀ p ∈ c.patterns, p.IsRead (!continuesItem c.text.toList) := by
  have hunmarked : '#' ∉ c.text.toList := by
    obtain ⟨a, b, -, -, htext⟩ := Text.exists_padding_trim text.toList
    rw [(readPatterns_of_read h).1]
    intro hin
    refine hhash ?_
    rw [htext]
    simp [hin]
  intro p hp
  have hread := schedule_of_read h p hp
  exact ⟨occurrence_of_read h hunmarked p hp, hread.ascending, hread.zero_mem, hread.second_lt,
    hread.seconds_eq⟩

end Placeholder.Temporal.Cron
