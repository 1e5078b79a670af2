import Mathlib
import Placeholder.Proofs.ArithmeticGrammar
import Placeholder.Proofs.WordRuns
import Placeholder.Proofs.WrittenNumbers

/-!
# The grammar of numerals

A regular expression for the texts that are numerals, and the number that a numeral is read as. The
scanner finds the parts of a numeral, and it finds them exactly in the texts that these parts make
up. A numeral with a point is read as a float and any other as an integer, which for digits behind
an optional sign is their value in base ten.
-/

namespace Placeholder.Number

open Clause (Stops stops_nil stops_cons takeWhile_append_of_stops)
open Text (IsRun)

/-! ### The parts of a numeral and their texts -/

namespace Numeral

def isSignMark (c : Char) : Bool :=
  c == '+' || c == '-'

def IsSign (sign : Option Char) : Prop :=
  ∀ c ∈ sign, isSignMark c = true

inductive WritesFraction : Option (List Char) → List Char → Prop where
  | none : WritesFraction none []
  | some {digits : List Char} (hdigits : ∀ c ∈ digits, c.isDigit = true) :
      WritesFraction (some digits) ('.' :: digits)

/-- The part does not tell which of its two letters a power is written with. -/
inductive WritesPower : Option (Option Char × List Char) → List Char → Prop where
  | none : WritesPower none []
  | some {mark : Char} {sign : Option Char} {digits : List Char} (hmark : mark = 'e' ∨ mark = 'E')
      (hsign : IsSign sign) (hdigits : IsRun Char.isDigit digits) :
      WritesPower (some (sign, digits)) (mark :: (sign.toList ++ digits))

/-- The texts of a numeral: its parts one behind the other, with a digit among them in front of the
power. -/
inductive Writes : Numeral → List Char → Prop where
  | mk {sign : Option Char} {whole : List Char} {fraction : Option (List Char)}
      {power : Option (Option Char × List Char)} {fractionText powerText : List Char}
      (hsign : IsSign sign) (hwhole : ∀ c ∈ whole, c.isDigit = true)
      (hfraction : WritesFraction fraction fractionText)
      (hdigit : whole ≠ [] ∨ fraction.getD [] ≠ []) (hpower : WritesPower power powerText) :
      Writes ⟨sign, whole, fraction, power⟩
        (sign.toList ++ (whole ++ fractionText) ++ powerText)

theorem isSignMark_of_isDigit {c : Char} (h : c.isDigit = true) : isSignMark c = false := by
  rw [isSignMark, Bool.or_eq_false_iff, beq_eq_false_iff_ne, beq_eq_false_iff_ne]
  constructor <;> rintro rfl <;> cases h

theorem IsSign.not_mem {sign : Option Char} (h : IsSign sign) : '.' ∉ sign.toList := by
  intro hmem
  cases h '.' (Option.mem_toList.mp hmem)

theorem stops_isSignMark_of_isRun {digits : List Char} (h : IsRun Char.isDigit digits) :
    Stops isSignMark digits := by
  obtain ⟨c, rest, rfl⟩ := List.exists_cons_of_ne_nil h.1
  exact stops_cons.mpr (isSignMark_of_isDigit (h.2 c List.mem_cons_self))

/-! ### Scanning the parts -/

theorem takeSign_of_stops {rest : List Char} (h : Stops isSignMark rest) :
    takeSign rest = (none, rest) := by
  unfold takeSign
  split
  · cases stops_cons.mp h
  · cases stops_cons.mp h
  · rfl

theorem takeSign_text {sign : Option Char} {rest : List Char} (hsign : IsSign sign)
    (hrest : Stops isSignMark rest) : takeSign (sign.toList ++ rest) = (sign, rest) := by
  cases sign with
  | none => exact takeSign_of_stops hrest
  | some c =>
    have hc : c = '+' ∨ c = '-' := by simpa [isSignMark] using hsign c rfl
    rcases hc with rfl | rfl <;> rfl

theorem exists_takeSign (cs : List Char) :
    ∃ sign rest, takeSign cs = (sign, rest) ∧ IsSign sign ∧ cs = sign.toList ++ rest := by
  unfold takeSign
  split
  · exact ⟨some '+', _, rfl, by simp [IsSign, isSignMark], rfl⟩
  · exact ⟨some '-', _, rfl, by simp [IsSign, isSignMark], rfl⟩
  · exact ⟨none, _, rfl, by simp [IsSign], rfl⟩

theorem takeFraction_text {fraction : Option (List Char)} {text rest : List Char}
    (h : WritesFraction fraction text) (hrest : Stops Arithmetic.isNumeric rest) :
    takeFraction (text ++ rest) = (fraction, rest) := by
  cases h with
  | none => exact Arithmetic.takeFraction_of_stops hrest
  | @some digits hdigits =>
    have hstops : Stops Char.isDigit rest := fun c hc =>
      (Arithmetic.not_numeric_iff.mp (hrest c hc)).1
    obtain ⟨htake, hdrop⟩ := takeWhile_append_of_stops hdigits hstops
    rw [List.cons_append, takeFraction, htake, hdrop]

theorem exists_takeFraction (cs : List Char) :
    ∃ fraction text rest, takeFraction cs = (fraction, rest) ∧ WritesFraction fraction text ∧
      cs = text ++ rest := by
  rcases Arithmetic.takeFraction_eq cs with hnone | ⟨tail, rfl, hsome⟩
  · exact ⟨none, [], cs, hnone, .none, rfl⟩
  · refine ⟨_, _, _, hsome, .some fun c hc => List.mem_takeWhile_imp hc, ?_⟩
    rw [List.cons_append, List.takeWhile_append_dropWhile]

theorem endingPower?_eq_some_iff {cs : List Char} {power : Option (Option Char × List Char)} :
    endingPower? cs = some power ↔ WritesPower power cs := by
  constructor
  · intro h
    cases cs with
    | nil =>
      cases h
      exact .none
    | cons mark cs =>
      obtain ⟨sign, digits, htake, hsign, rfl⟩ := exists_takeSign cs
      simp only [endingPower?, htake] at h
      split_ifs at h with hmark hdigits
      cases h
      exact .some hmark hsign (by simpa [IsRun] using hdigits)
  · intro h
    cases h with
    | none => rfl
    | some hmark hsign hdigits =>
      have htake := takeSign_text hsign (stops_isSignMark_of_isRun hdigits)
      have hne := List.isEmpty_eq_false_iff.mpr hdigits.1
      have hall := List.all_eq_true.mpr hdigits.2
      simp only [endingPower?, if_pos hmark, htake, hne, hall, Bool.not_false, Bool.and_self,
        if_true]

theorem WritesPower.stops {power : Option (Option Char × List Char)} {text : List Char}
    (h : WritesPower power text) : Stops Arithmetic.isNumeric text := by
  cases h with
  | none => exact stops_nil _
  | some hmark => rcases hmark with rfl | rfl <;> exact stops_cons.mpr (by decide)

/-! ### Scanning a numeral -/

theorem scan?_of_writes {n : Numeral} {cs : List Char} (h : Writes n cs) : scan? cs = some n := by
  obtain @⟨sign, whole, fraction, power, fractionText, powerText, hsign, hwhole, hfraction, hdigit,
    hpower⟩ := h
  have hpoint : Stops Char.isDigit (fractionText ++ powerText) := by
    cases hfraction with
    | none => exact fun c hc => (Arithmetic.not_numeric_iff.mp (hpower.stops c hc)).1
    | some hdigits => exact stops_cons.mpr (by decide)
  have hfirst : Stops isSignMark (whole ++ (fractionText ++ powerText)) := by
    cases whole with
    | cons c whole => exact stops_cons.mpr (isSignMark_of_isDigit (hwhole c List.mem_cons_self))
    | nil =>
      cases hfraction with
      | none => simp at hdigit
      | some hdigits => exact stops_cons.mpr (by decide)
  have hnonempty : (whole.isEmpty && (fraction.getD []).isEmpty) = false := by
    rw [Bool.and_eq_false_iff, List.isEmpty_eq_false_iff, List.isEmpty_eq_false_iff]
    exact hdigit
  obtain ⟨htake, hdrop⟩ := takeWhile_append_of_stops hwhole hpoint
  rw [List.append_assoc, List.append_assoc, scan?, takeSign_text hsign hfirst]
  simp only [htake, hdrop, takeFraction_text hfraction hpower.stops, hnonempty, Bool.false_eq_true,
    if_false, endingPower?_eq_some_iff.mpr hpower, Option.map_some]

theorem writes_of_scan? {n : Numeral} {cs : List Char} (h : scan? cs = some n) : Writes n cs := by
  obtain ⟨sign, unsigned, hsignText, hsign, rfl⟩ := exists_takeSign cs
  obtain ⟨fraction, fractionText, powerText, hfractionText, hfraction, hrest⟩ :=
    exists_takeFraction (unsigned.dropWhile Char.isDigit)
  have hwhole : ∀ c ∈ unsigned.takeWhile Char.isDigit, c.isDigit = true := fun c hc =>
    List.mem_takeWhile_imp hc
  have hcut : unsigned = unsigned.takeWhile Char.isDigit ++ fractionText ++ powerText := by
    rw [List.append_assoc, ← hrest, List.takeWhile_append_dropWhile]
  simp only [scan?, hsignText, hfractionText] at h
  split_ifs at h with hempty
  obtain ⟨power, hpower, rfl⟩ := Option.map_eq_some_iff.mp h
  have hdigit : unsigned.takeWhile Char.isDigit ≠ [] ∨ fraction.getD [] ≠ [] := by
    simpa [Classical.or_iff_not_imp_left] using hempty
  have hwrites := Writes.mk hsign hwhole hfraction hdigit (endingPower?_eq_some_iff.mp hpower)
  rwa [List.append_assoc, ← hcut] at hwrites

/-- The scanner finds the parts of a numeral exactly in the texts of this numeral. -/
theorem scan?_eq_some_iff {n : Numeral} {cs : List Char} : scan? cs = some n ↔ Writes n cs :=
  ⟨writes_of_scan?, scan?_of_writes⟩

/-- A text is no numeral if no numeral starts with its first character. -/
theorem scan?_cons_eq_none {c : Char} {cs : List Char} (hsign : isSignMark c = false)
    (hnumeric : Arithmetic.isNumeric c = false) : scan? (c :: cs) = none := by
  have htake : takeSign (c :: cs) = (none, c :: cs) := takeSign_of_stops (stops_cons.mpr hsign)
  have hfraction : takeFraction (c :: cs) = (none, c :: cs) :=
    Arithmetic.takeFraction_of_stops (stops_cons.mpr hnumeric)
  have hdigit : c.isDigit = false := (Arithmetic.not_numeric_iff.mp hnumeric).1
  rw [scan?, htake]
  simp only [List.takeWhile_cons, List.dropWhile_cons, hdigit, Bool.false_eq_true, if_false,
    hfraction]
  rfl

theorem WritesPower.not_mem {power : Option (Option Char × List Char)} {text : List Char}
    (h : WritesPower power text) : '.' ∉ text := by
  cases h with
  | none => exact List.not_mem_nil
  | @some mark sign digits hmark hsign hdigits =>
    have hletter : '.' ≠ mark := by
      rintro rfl
      simp at hmark
    simp only [List.mem_cons, List.mem_append, not_or]
    exact ⟨hletter, hsign.not_mem, Arithmetic.not_mem_of_digits hdigits.2⟩

/-- A point in the text of a numeral is the one in front of its fraction. -/
theorem Writes.isSome_fraction_iff {n : Numeral} {cs : List Char} (h : Writes n cs) :
    n.fraction.isSome = true ↔ '.' ∈ cs := by
  obtain @⟨sign, whole, fraction, power, fractionText, powerText, hsign, hwhole, hfraction, -,
    hpower⟩ := h
  have hfractionText : fraction.isSome = true ↔ '.' ∈ fractionText := by
    cases hfraction with
    | none => simp
    | some => simp
  simp only [List.mem_append, hsign.not_mem, Arithmetic.not_mem_of_digits hwhole, hpower.not_mem,
    hfractionText, false_or, or_false]

end Numeral

/-! ### The regular expression -/

namespace Grammar

open RegularExpression (matches'_add matches'_mul matches'_star matches'_epsilon)

def oneOf (chars : List Char) : RegularExpression Char :=
  (chars.map RegularExpression.char).sum

def optional (r : RegularExpression Char) : RegularExpression Char :=
  1 + r

def digitMarks : List Char :=
  ['0', '1', '2', '3', '4', '5', '6', '7', '8', '9']

def digits : RegularExpression Char :=
  oneOf digitMarks * (oneOf digitMarks).star

def sign : RegularExpression Char :=
  optional (oneOf ['+', '-'])

def fraction : RegularExpression Char :=
  optional (oneOf ['.'] * optional digits)

def power : RegularExpression Char :=
  optional (oneOf ['e', 'E'] * sign * digits)

/-- An optional sign, digits with at most one point among or around them, and an optional power of
ten. -/
def numeral : RegularExpression Char :=
  sign * (digits * fraction + oneOf ['.'] * digits) * power

variable {cs : List Char}

theorem mem_optional {r : RegularExpression Char} :
    cs ∈ (optional r).matches' ↔ cs = [] ∨ cs ∈ r.matches' := by
  rw [optional, matches'_add, Language.mem_add, matches'_epsilon, Language.mem_one]

theorem mem_oneOf {chars : List Char} : cs ∈ (oneOf chars).matches' ↔ ∃ c ∈ chars, cs = [c] := by
  induction chars with
  | nil => exact iff_of_false (Language.notMem_zero cs) (by simp)
  | cons c chars ih =>
    have hsum : oneOf (c :: chars) = RegularExpression.char c + oneOf chars := rfl
    rw [hsum, matches'_add, Language.mem_add, ih, List.exists_mem_cons_iff]
    rfl

theorem mem_point : cs ∈ (oneOf ['.']).matches' ↔ cs = ['.'] := by
  simp [mem_oneOf]

theorem mem_star_oneOf {chars : List Char} :
    cs ∈ (oneOf chars).star.matches' ↔ ∀ c ∈ cs, c ∈ chars := by
  rw [matches'_star, Language.mem_kstar]
  constructor
  · rintro ⟨words, rfl, hwords⟩ c hc
    obtain ⟨word, hword, hmem⟩ := List.mem_flatten.mp hc
    obtain ⟨d, hd, rfl⟩ := mem_oneOf.mp (hwords word hword)
    rwa [List.mem_singleton.mp hmem]
  · intro h
    refine ⟨cs.map fun c => [c], (List.flatMap_singleton' cs).symm, fun word hword => ?_⟩
    obtain ⟨c, hc, rfl⟩ := List.mem_map.mp hword
    exact mem_oneOf.mpr ⟨c, h c hc, rfl⟩

theorem mem_digitMarks {c : Char} : c ∈ digitMarks ↔ c.isDigit = true := by
  constructor
  · exact List.all_eq_true.mp (by decide) c
  · intro h
    have hbounds : 48 ≤ c.toNat ∧ c.toNat ≤ 57 := by
      simpa [Char.isDigit, UInt32.le_iff_toNat_le] using h
    have hcode : c.toNat ∈ digitMarks.map Char.toNat := by
      change c.toNat ∈ [48, 49, 50, 51, 52, 53, 54, 55, 56, 57]
      simp only [List.mem_cons, List.not_mem_nil, or_false]
      omega
    obtain ⟨d, hd, heq⟩ := List.mem_map.mp hcode
    rwa [← Char.toNat_inj.mp heq]

theorem mem_digits : cs ∈ digits.matches' ↔ IsRun Char.isDigit cs := by
  rw [digits, matches'_mul, Language.mem_mul]
  constructor
  · rintro ⟨first, hfirst, rest, hrest, rfl⟩
    obtain ⟨c, hc, rfl⟩ := mem_oneOf.mp hfirst
    refine ⟨List.cons_ne_nil c rest, List.forall_mem_cons.mpr ⟨mem_digitMarks.mp hc, ?_⟩⟩
    exact fun d hd => mem_digitMarks.mp (mem_star_oneOf.mp hrest d hd)
  · rintro ⟨hne, hdigits⟩
    obtain ⟨c, rest, rfl⟩ := List.exists_cons_of_ne_nil hne
    obtain ⟨hc, hrest⟩ := List.forall_mem_cons.mp hdigits
    refine ⟨[c], mem_oneOf.mpr ⟨c, mem_digitMarks.mpr hc, rfl⟩, rest, ?_, rfl⟩
    exact mem_star_oneOf.mpr fun d hd => mem_digitMarks.mpr (hrest d hd)

theorem mem_optional_digits :
    cs ∈ (optional digits).matches' ↔ ∀ c ∈ cs, c.isDigit = true := by
  rw [mem_optional, mem_digits]
  constructor
  · rintro (rfl | hrun)
    · exact List.forall_mem_nil _
    · exact hrun.2
  · exact fun h => or_iff_not_imp_left.mpr fun hne => ⟨hne, h⟩

theorem mem_sign : cs ∈ sign.matches' ↔ ∃ mark, Numeral.IsSign mark ∧ cs = mark.toList := by
  rw [sign, mem_optional, mem_oneOf]
  constructor
  · rintro (rfl | ⟨c, hc, rfl⟩)
    · exact ⟨none, by simp [Numeral.IsSign], rfl⟩
    · exact ⟨some c, by simpa [Numeral.IsSign, Numeral.isSignMark] using hc, rfl⟩
  · rintro ⟨mark, hmark, rfl⟩
    cases mark with
    | none => exact Or.inl rfl
    | some c => exact Or.inr ⟨c, by simpa [Numeral.isSignMark] using hmark c rfl, rfl⟩

theorem mem_fraction : cs ∈ fraction.matches' ↔ ∃ f, Numeral.WritesFraction f cs := by
  rw [fraction, mem_optional, matches'_mul, Language.mem_mul]
  constructor
  · rintro (rfl | ⟨point, hpoint, places, hplaces, rfl⟩)
    · exact ⟨none, .none⟩
    · obtain rfl := mem_point.mp hpoint
      exact ⟨some places, .some (mem_optional_digits.mp hplaces)⟩
  · rintro ⟨f, hf⟩
    cases hf with
    | none => exact Or.inl rfl
    | @some places hplaces =>
      exact Or.inr ⟨['.'], mem_point.mpr rfl, places, mem_optional_digits.mpr hplaces, rfl⟩

theorem mem_power : cs ∈ power.matches' ↔ ∃ p, Numeral.WritesPower p cs := by
  rw [power, mem_optional, matches'_mul, Language.mem_mul]
  constructor
  · rintro (rfl | ⟨front, hfront, ds, hds, rfl⟩)
    · exact ⟨none, .none⟩
    · obtain ⟨letter, hletter, signText, hsignText, rfl⟩ := Language.mem_mul.mp hfront
      obtain ⟨mark, hmark, rfl⟩ := mem_oneOf.mp hletter
      obtain ⟨s, hs, rfl⟩ := mem_sign.mp hsignText
      exact ⟨some (s, ds), .some (by simpa using hmark) hs (mem_digits.mp hds)⟩
  · rintro ⟨p, hp⟩
    cases hp with
    | none => exact Or.inl rfl
    | @some mark s ds hmark hs hds =>
      have hletter : [mark] ∈ (oneOf ['e', 'E']).matches' :=
        mem_oneOf.mpr ⟨mark, by simpa using hmark, rfl⟩
      have hfront : mark :: s.toList ∈ (oneOf ['e', 'E'] * sign).matches' :=
        Language.mem_mul.mpr ⟨[mark], hletter, s.toList, mem_sign.mpr ⟨s, hs, rfl⟩, rfl⟩
      exact Or.inr ⟨mark :: s.toList, hfront, ds, mem_digits.mpr hds, rfl⟩

/-- Digits with at most one point, in the two forms of the grammar: the point among the digits or
behind them, and the point in front. -/
theorem mem_digits_fraction : cs ∈ (digits * fraction + oneOf ['.'] * digits).matches' ↔
    ∃ whole f text, (∀ c ∈ whole, c.isDigit = true) ∧ Numeral.WritesFraction f text ∧
      (whole ≠ [] ∨ f.getD [] ≠ []) ∧ cs = whole ++ text := by
  rw [matches'_add, Language.mem_add, matches'_mul, matches'_mul, Language.mem_mul,
    Language.mem_mul]
  constructor
  · rintro (⟨whole, hwhole, text, htext, rfl⟩ | ⟨point, hpoint, places, hplaces, rfl⟩)
    · obtain ⟨f, hf⟩ := mem_fraction.mp htext
      obtain ⟨hne, hdigits⟩ := mem_digits.mp hwhole
      exact ⟨whole, f, text, hdigits, hf, Or.inl hne, rfl⟩
    · obtain rfl := mem_point.mp hpoint
      obtain ⟨hne, hdigits⟩ := mem_digits.mp hplaces
      exact ⟨[], some places, '.' :: places, List.forall_mem_nil _, .some hdigits, Or.inr hne, rfl⟩
  · rintro ⟨whole, f, text, hwhole, hf, hdigit, rfl⟩
    by_cases hempty : whole = []
    · subst hempty
      have hplaces : f.getD [] ≠ [] := hdigit.resolve_left fun hne => hne rfl
      cases hf with
      | none => exact absurd rfl hplaces
      | @some places hdigits =>
        exact Or.inr ⟨['.'], mem_point.mpr rfl, places, mem_digits.mpr ⟨hplaces, hdigits⟩, rfl⟩
    · exact Or.inl ⟨whole, mem_digits.mpr ⟨hempty, hwhole⟩, text, mem_fraction.mpr ⟨f, hf⟩, rfl⟩

/-- The grammar derives the texts of all numerals. -/
theorem mem_numeral : cs ∈ numeral.matches' ↔ ∃ n, Numeral.Writes n cs := by
  rw [numeral, matches'_mul, Language.mem_mul]
  constructor
  · rintro ⟨front, hfront, powerText, hpowerText, rfl⟩
    obtain ⟨signText, hsignText, middle, hmiddle, rfl⟩ := Language.mem_mul.mp hfront
    obtain ⟨s, hs, rfl⟩ := mem_sign.mp hsignText
    obtain ⟨whole, f, text, hwhole, hf, hdigit, rfl⟩ := mem_digits_fraction.mp hmiddle
    obtain ⟨p, hp⟩ := mem_power.mp hpowerText
    exact ⟨_, .mk hs hwhole hf hdigit hp⟩
  · rintro ⟨n, hn⟩
    obtain @⟨s, whole, f, p, text, powerText, hs, hwhole, hf, hdigit, hp⟩ := hn
    have hmiddle := mem_digits_fraction.mpr ⟨whole, f, text, hwhole, hf, hdigit, rfl⟩
    have hfront := Language.mem_mul.mpr ⟨s.toList, mem_sign.mpr ⟨s, hs, rfl⟩, _, hmiddle, rfl⟩
    exact ⟨_, hfront, powerText, mem_power.mpr ⟨p, hp⟩, rfl⟩

example : ∀ text ∈ ["5.", "-.5e-3", "007", "1E+9"], text.toList ∈ numeral.matches' := by
  decide

example : ∀ text ∈ ["", ".", "+", "1e", "1.2.3", "0x1"], text.toList ∉ numeral.matches' := by
  decide

end Grammar

/-! ### The number of a numeral -/

/-- The value of digits in base ten, behind a sign. -/
def signedValue (sign : Option Char) (digits : List Char) : Int :=
  let magnitude : Nat := Nat.ofDigits 10 (digits.map Text.digitValue).reverse
  if sign = some '-' then -(magnitude : Int) else magnitude

/-- Digits behind an optional sign, as a text of their value. -/
def WritesInteger (cs : List Char) (n : Int) : Prop :=
  ∃ sign digits, Numeral.IsSign sign ∧ IsRun Char.isDigit digits ∧ cs = sign.toList ++ digits ∧
    n = signedValue sign digits

theorem digitsValue_eq_ofDigits (cs : List Char) :
    Text.digitsValue cs = Nat.ofDigits 10 (cs.map Text.digitValue).reverse := by
  induction cs using List.reverseRecOn with
  | nil => rfl
  | append_singleton cs c ih =>
    rw [Text.digitsValue_concat, ih, List.map_append, List.reverse_append]
    simp only [List.map_cons, List.map_nil, List.reverse_singleton, List.singleton_append,
      Nat.ofDigits_cons]
    exact Nat.add_comm _ _

theorem readScalar?_of_writesInteger {cs : List Char} {n : Int64}
    (h : WritesInteger (Text.trim cs) n.toInt) : readScalar? cs = some (.int n) := by
  obtain ⟨sign, digits, hsign, hdigits, htrim, hvalue⟩ := h
  have htake : Numeral.takeSign (Text.trim cs) = (sign, digits) := by
    rw [htrim]
    exact Numeral.takeSign_text hsign (Numeral.stops_isSignMark_of_isRun hdigits)
  rw [signedValue, ← digitsValue_eq_ofDigits] at hvalue
  exact readScalar?_of_takeSign htake hdigits.1 hdigits.2 hvalue

theorem isNumeral_iff (cs : List Char) :
    isNumeral cs = true ↔ ∃ n, Numeral.Writes n (Text.trim cs) := by
  simp only [isNumeral, Option.isSome_iff_exists, Numeral.scan?_eq_some_iff]

/-- What is read from a text: a float where it has a point, an integer where it has none. -/
theorem readScalar?_cases (cs : List Char) :
    (isNumeral cs = false ∧ readScalar? cs = none) ∨
      (isNumeral cs = true ∧ '.' ∈ cs ∧ ∃ x, readScalar? cs = some (.float x)) ∨
        (isNumeral cs = true ∧ '.' ∉ cs ∧ ∃ n, readScalar? cs = some (.int n)) := by
  rw [isNumeral, readScalar?]
  cases hscan : Numeral.scan? (Text.trim cs) with
  | none => exact Or.inl ⟨rfl, rfl⟩
  | some n =>
    have hpoint := (Numeral.writes_of_scan? hscan).isSome_fraction_iff
    rw [Text.mem_trim_iff (by decide)] at hpoint
    by_cases hfraction : n.fraction.isSome = true
    · exact Or.inr (Or.inl ⟨rfl, hpoint.mp hfraction, n.toFloat, by simp [hfraction]⟩)
    · exact Or.inr (Or.inr ⟨rfl, fun hmem => hfraction (hpoint.mpr hmem), _, by
        rw [Option.map_some, if_neg hfraction]⟩)

theorem exists_readScalar?_float_iff (cs : List Char) :
    (∃ x, readScalar? cs = some (.float x)) ↔ isNumeral cs = true ∧ '.' ∈ cs := by
  rcases readScalar?_cases cs with ⟨hnumeral, hread⟩ | ⟨hnumeral, hpoint, x, hread⟩ |
    ⟨hnumeral, hpoint, n, hread⟩
  · simp [hnumeral, hread]
  · simp [hnumeral, hread, hpoint]
  · simp [hnumeral, hread, hpoint]

theorem exists_readScalar?_int_iff (cs : List Char) :
    (∃ n, readScalar? cs = some (.int n)) ↔ isNumeral cs = true ∧ '.' ∉ cs := by
  rcases readScalar?_cases cs with ⟨hnumeral, hread⟩ | ⟨hnumeral, hpoint, x, hread⟩ |
    ⟨hnumeral, hpoint, n, hread⟩
  · simp [hnumeral, hread]
  · simp [hnumeral, hread, hpoint]
  · simp [hnumeral, hread, hpoint]

/-- Numerals are the texts of the grammar, padding apart, and they are what can be read: as a float
with a point, as an integer without one, and digits behind an optional sign as their exact value if
it is one of 64 bits. -/
theorem numeral_readings (cs : List Char) :
    (isNumeral cs = true ↔ Text.trim cs ∈ Grammar.numeral.matches') ∧
      ((readScalar? cs).isSome = true ↔ isNumeral cs = true) ∧
      ((∃ x, readScalar? cs = some (.float x)) ↔ isNumeral cs = true ∧ '.' ∈ cs) ∧
      ((∃ n, readScalar? cs = some (.int n)) ↔ isNumeral cs = true ∧ '.' ∉ cs) ∧
      ∀ n : Int64, WritesInteger (Text.trim cs) n.toInt → readScalar? cs = some (.int n) := by
  have hsome : (readScalar? cs).isSome = isNumeral cs := Option.isSome_map
  exact ⟨(isNumeral_iff cs).trans Grammar.mem_numeral.symm, by rw [hsome],
    exists_readScalar?_float_iff cs, exists_readScalar?_int_iff cs,
    fun n => readScalar?_of_writesInteger⟩

theorem numeral_readings_padded :
    WritesInteger (Text.trim " -007\n".toList) (-7 : Int64).toInt ∧
      isNumeral " -007\n".toList = true ∧ readScalar? " -007\n".toList = some (.int (-7)) := by
  have hwrites : WritesInteger (Text.trim " -007\n".toList) (-7 : Int64).toInt :=
    ⟨some '-', "007".toList, by simp [Numeral.IsSign, Numeral.isSignMark],
      ⟨by decide, List.all_eq_true.mp (by decide)⟩, by decide, by decide⟩
  obtain ⟨-, hsome, -, -, hexact⟩ := numeral_readings " -007\n".toList
  have hread := hexact (-7) hwrites
  exact ⟨hwrites, hsome.mp (by rw [hread]; rfl), hread⟩

end Placeholder.Number
