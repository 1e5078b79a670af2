import Mathlib
import Placeholder.Number.Numeral
import Placeholder.Proofs.DottedPath
import Placeholder.Proofs.Trimming

/-!
# Numbers written with and without zeros in front

Zeros in front of digits do not change what they are read as. Digits are the decimal text of the
number they are read as exactly when they have no such zeros, and padding leaves a number as it is
exactly when it has enough digits. Digits behind a sign are a numeral, and the decimal text of a
64-bit integer is read back as this integer.
-/

namespace Placeholder

theorem toInt_clampInt64_of_bounds {n : Int} (hmin : -2 ^ 63 ≤ n) (hmax : n < 2 ^ 63) :
    (clampInt64 n).toInt = n := by
  have hleast := Int64.toInt_minValue
  have hgreatest := Int64.toInt_maxValue
  rw [clampInt64, if_neg (by omega), if_neg (by omega)]
  exact Int64.toInt_ofInt_of_le hmin hmax

end Placeholder

namespace Placeholder.Text

theorem digitsValue_concat (cs : List Char) (c : Char) :
    digitsValue (cs ++ [c]) = 10 * digitsValue cs + digitValue c := by
  rw [digitsValue, digitsValue, List.foldl_append, List.foldl_cons, List.foldl_nil]

theorem digitsValue_zeros (k : Nat) (cs : List Char) :
    digitsValue (List.replicate k '0' ++ cs) = digitsValue cs := by
  induction k with
  | zero => rfl
  | succ k ih =>
    have hzero : 10 * 0 + digitValue '0' = 0 := by decide
    rw [← ih, List.replicate_succ, List.cons_append, digitsValue, List.foldl_cons, hzero]
    rfl

theorem digitsValue_padded (width n : Nat) : digitsValue (padded width n) = n := by
  rw [padded, padZeros, digitsValue_zeros, digitsValue_natDigits]

theorem isDigit_of_mem_zeros {k : Nat} {cs : List Char} (h : ∀ c ∈ cs, c.isDigit = true) :
    ∀ c ∈ List.replicate k '0' ++ cs, c.isDigit = true := by
  intro c hc
  rcases List.mem_append.mp hc with hzero | hdigit
  · rw [List.eq_of_mem_replicate hzero]
    rfl
  · exact h c hdigit

theorem readDigits?_of_digits {cs : List Char} (hne : cs ≠ [])
    (hdigits : ∀ c ∈ cs, c.isDigit = true) : readDigits? cs = some (digitsValue cs) := by
  rw [readDigits?, List.isEmpty_eq_false_iff.mpr hne, List.all_eq_true.mpr hdigits]
  rfl

theorem readNat?_of_digits {cs : List Char} (hne : cs ≠ [])
    (hdigits : ∀ c ∈ cs, c.isDigit = true) (bound : Nat) :
    readNat? bound cs = if digitsValue cs < bound then some (digitsValue cs) else none := by
  unfold readNat?
  split
  · have hplus : '+'.isDigit = true := hdigits '+' List.mem_cons_self
    cases hplus
  · simp only [readDigits?_of_digits hne hdigits, Option.filter_some, decide_eq_true_eq]

theorem readInt64?_of_digits {cs : List Char} (hne : cs ≠ [])
    (hdigits : ∀ c ∈ cs, c.isDigit = true) : readInt64? cs = exactInt64 (digitsValue cs) := by
  unfold readInt64?
  split
  · have hminus : '-'.isDigit = true := hdigits '-' List.mem_cons_self
    cases hminus
  · have hplus : '+'.isDigit = true := hdigits '+' List.mem_cons_self
    cases hplus
  · rw [readDigits?_of_digits hne hdigits, Option.bind_some]

/-! ### Without zeros in front -/

theorem digitValue_lt_ten {c : Char} (h : c.isDigit = true) : digitValue c < 10 := by
  have hbounds : 48 ≤ c.toNat ∧ c.toNat ≤ 57 := by
    simpa [Char.isDigit, UInt32.le_iff_toNat_le] using h
  change c.toNat - 48 < 10
  omega

theorem natDigits_digitValue {c : Char} (h : c.isDigit = true) :
    natDigits (digitValue c) = [c] := by
  have hbounds : 48 ≤ c.toNat ∧ c.toNat ≤ 57 := by
    simpa [Char.isDigit, UInt32.le_iff_toNat_le] using h
  have hchar : (digitValue c).digitChar = c := by
    apply Char.toNat_inj.mp
    rw [Nat.toNat_digitChar_of_lt_ten (digitValue_lt_ten h)]
    change 48 + (c.toNat - 48) = c.toNat
    omega
  rw [natDigits, Nat.toDigits_of_lt_base (digitValue_lt_ten h), hchar]

theorem digitsValue_lt {cs : List Char} (hdigits : ∀ c ∈ cs, c.isDigit = true) :
    digitsValue cs < 10 ^ cs.length := by
  induction cs using List.reverseRecOn with
  | nil => decide
  | append_singleton cs c ih =>
    have hc := digitValue_lt_ten (hdigits c (List.mem_append_right cs List.mem_cons_self))
    have hcs := ih fun d hd => hdigits d (List.mem_append_left [c] hd)
    rw [digitsValue_concat, List.length_append, List.length_singleton, Nat.pow_succ]
    omega

theorem natDigits_digitsValue {cs : List Char} (hne : cs ≠ [])
    (hdigits : ∀ c ∈ cs, c.isDigit = true) (h : cs.head? = some '0' → cs = ['0']) :
    natDigits (digitsValue cs) = cs := by
  induction cs using List.reverseRecOn with
  | nil => exact absurd rfl hne
  | append_singleton cs c ih =>
    have hc := hdigits c (List.mem_append_right cs List.mem_cons_self)
    rw [digitsValue_concat]
    by_cases hnil : cs = []
    · subst hnil
      change natDigits (10 * 0 + digitValue c) = [c]
      rw [Nat.mul_zero, Nat.zero_add, natDigits_digitValue hc]
    · have hhead : cs.head? ≠ some '0' := by
        intro hzero
        have hlength := congrArg List.length (h (by rw [List.head?_append, hzero]; rfl))
        have hpos := List.length_pos_iff.mpr hnil
        rw [List.length_append, List.length_singleton, List.length_singleton] at hlength
        omega
      have hcs := ih hnil (fun d hd => hdigits d (List.mem_append_left [c] hd))
        fun hzero => absurd hzero hhead
      have hpos : 0 < digitsValue cs := by
        refine Nat.pos_of_ne_zero fun hzero => hhead ?_
        rw [← hcs, hzero]
        rfl
      rw [natDigits, ← Nat.toDigits_append_toDigits (by decide) hpos (digitValue_lt_ten hc)]
      exact congrArg₂ (· ++ ·) hcs (natDigits_digitValue hc)

theorem le_length_natDigits_iff {width n : Nat} (hwidth : 2 ≤ width) :
    width ≤ (natDigits n).length ↔ 10 ^ (width - 1) ≤ n := by
  have hle : (natDigits n).length ≤ width - 1 ↔ n < 10 ^ (width - 1) :=
    Nat.length_toDigits_le_iff (by decide) (by omega)
  omega

/-- Digits are the decimal text of their number exactly when no zero stands in front. -/
theorem natDigits_digitsValue_iff {cs : List Char} (hne : cs ≠ [])
    (hdigits : ∀ c ∈ cs, c.isDigit = true) :
    natDigits (digitsValue cs) = cs ↔ (cs.head? = some '0' → cs = ['0']) := by
  refine ⟨fun h hzero => ?_, natDigits_digitsValue hne hdigits⟩
  obtain ⟨rest, rfl⟩ := List.head?_eq_some_iff.mp hzero
  have hvalue : digitsValue ('0' :: rest) = digitsValue rest := digitsValue_zeros 1 rest
  have hupper := digitsValue_lt fun c hc => hdigits c (List.mem_cons_of_mem '0' hc)
  by_contra hlong
  have hlength : 2 ≤ ('0' :: rest).length := by
    cases rest with
    | nil => exact absurd rfl hlong
    | cons d rest => exact Nat.le_add_left 2 _
  have hlower := (le_length_natDigits_iff hlength).mp (congrArg List.length h).ge
  rw [hvalue] at hlower
  exact absurd hlower (not_le.mpr hupper)

theorem visible_intDigits (n : Int) : Visible (intDigits n) := by
  have hdigits : Visible (natDigits n.natAbs) :=
    visible_of_digits Nat.toDigits_ne_nil fun _ => isDigit_of_mem_natDigits
  unfold intDigits
  split
  · exact ⟨List.cons_ne_nil _ _, List.forall_mem_cons.mpr ⟨by decide, hdigits.2⟩⟩
  · exact hdigits

/-! ### Padding -/

theorem padded_eq_natDigits_iff {width n : Nat} (hwidth : 2 ≤ width) :
    padded width n = natDigits n ↔ 10 ^ (width - 1) ≤ n := by
  rw [← le_length_natDigits_iff hwidth, padded, padZeros, List.append_left_eq_self,
    List.replicate_eq_nil_iff]
  omega

theorem length_padded {width n : Nat} (hwidth : 0 < width) (hn : n < 10 ^ width) :
    (padded width n).length = width := by
  have hle : (natDigits n).length ≤ width :=
    (Nat.length_toDigits_le_iff (by decide) hwidth).mpr hn
  rw [padded, padZeros, List.length_append, List.length_replicate]
  omega

theorem padded_inj {width n m : Nat} : padded width n = padded width m ↔ n = m := by
  refine ⟨fun h => ?_, fun h => by rw [h]⟩
  rw [← digitsValue_padded width n, h, digitsValue_padded]

theorem isDigit_of_mem_padded {width n : Nat} : ∀ c ∈ padded width n, c.isDigit = true :=
  isDigit_of_mem_zeros fun _ => isDigit_of_mem_natDigits

/-- Digits of one length that are read as the same number are the same digits. -/
theorem eq_of_digitsValue_eq {cs ds : List Char} (hlength : cs.length = ds.length)
    (hcs : ∀ c ∈ cs, c.isDigit = true) (hds : ∀ d ∈ ds, d.isDigit = true)
    (h : digitsValue cs = digitsValue ds) : cs = ds := by
  induction cs using List.reverseRecOn generalizing ds with
  | nil => exact (List.length_eq_zero_iff.mp hlength.symm).symm
  | append_singleton cs c ih =>
    obtain ⟨ds, d, rfl⟩ : ∃ start d, ds = start ++ [d] := by
      refine (List.eq_nil_or_concat' ds).resolve_left ?_
      rintro rfl
      simp at hlength
    have hc := hcs c (List.mem_append_right cs List.mem_cons_self)
    have hd := hds d (List.mem_append_right ds List.mem_cons_self)
    have hcten := digitValue_lt_ten hc
    have hdten := digitValue_lt_ten hd
    rw [digitsValue_concat, digitsValue_concat] at h
    have hlast : c = d := by
      have hvalue : digitValue c = digitValue d := by omega
      have hchars : [c] = [d] := by rw [← natDigits_digitValue hc, hvalue, natDigits_digitValue hd]
      exact List.singleton_inj.mp hchars
    have hfront : cs = ds := by
      refine ih ?_ (fun e he => hcs e (List.mem_append_left [c] he))
        (fun e he => hds e (List.mem_append_left [d] he)) (by omega)
      simpa only [List.length_append, List.length_singleton, Nat.add_right_cancel_iff] using hlength
    rw [hfront, hlast]

theorem padded_digitsValue {cs : List Char} (hne : cs ≠ [])
    (hdigits : ∀ c ∈ cs, c.isDigit = true) : padded cs.length (digitsValue cs) = cs := by
  refine eq_of_digitsValue_eq ?_ isDigit_of_mem_padded hdigits (digitsValue_padded _ _)
  exact length_padded (List.length_pos_iff.mpr hne) (digitsValue_lt hdigits)

end Placeholder.Text

namespace Placeholder.Number

/-! ### Digits as numerals -/

/-- What is left behind the sign is the whole numeral if it has only digits. -/
theorem scan?_of_takeSign {cs digits : List Char} {sign : Option Char}
    (hsign : Numeral.takeSign cs = (sign, digits)) (hne : digits ≠ [])
    (hdigits : ∀ c ∈ digits, c.isDigit = true) :
    Numeral.scan? cs = some ⟨sign, digits, none, none⟩ := by
  have htake : digits.takeWhile Char.isDigit = digits := List.takeWhile_eq_self_iff.mpr hdigits
  have hdrop : digits.dropWhile Char.isDigit = [] := List.dropWhile_eq_nil_iff.mpr hdigits
  have hwhole : digits.isEmpty = false := List.isEmpty_eq_false_iff.mpr hne
  rw [Numeral.scan?, hsign]
  simp only [htake, hdrop, Numeral.takeFraction, hwhole, Bool.false_and, Bool.false_eq_true,
    if_false, Numeral.endingPower?, Option.map_some]

theorem takeSign_of_digits {digits : List Char} (hdigits : ∀ c ∈ digits, c.isDigit = true) :
    Numeral.takeSign digits = (none, digits) := by
  unfold Numeral.takeSign
  split
  · cases hdigits '+' List.mem_cons_self
  · cases hdigits '-' List.mem_cons_self
  · rfl

theorem takeSign_intDigits (n : Int) :
    Numeral.takeSign (Text.intDigits n) =
      (if n < 0 then some '-' else none, Text.natDigits n.natAbs) := by
  unfold Text.intDigits
  split
  · rfl
  · exact takeSign_of_digits fun _ => Text.isDigit_of_mem_natDigits

theorem readScalar?_of_takeSign {cs digits : List Char} {sign : Option Char} {n : Int64}
    (hsign : Numeral.takeSign (Text.trim cs) = (sign, digits)) (hne : digits ≠ [])
    (hdigits : ∀ c ∈ digits, c.isDigit = true)
    (hvalue : n.toInt =
      if sign = some '-' then -(Text.digitsValue digits : Int) else Text.digitsValue digits) :
    readScalar? cs = some (.int n) := by
  have hexact : Numeral.toInt64? ⟨sign, digits, none, none⟩ = some n := by
    refine (exactInt64_eq_some_iff _ n).mpr ?_
    simpa only [Numeral.isNegative, beq_iff_eq] using hvalue
  rw [readScalar?, scan?_of_takeSign hsign hne hdigits, Option.map_some, hexact]
  rfl

/-- A 64-bit integer is read back from its decimal text. -/
theorem readScalar?_intDigits (n : Int64) :
    readScalar? (Text.intDigits n.toInt) = some (.int n) := by
  have htake := takeSign_intDigits n.toInt
  rw [← (Text.visible_intDigits n.toInt).trimmed] at htake
  refine readScalar?_of_takeSign htake Nat.toDigits_ne_nil
    (fun _ => Text.isDigit_of_mem_natDigits) ?_
  rw [Text.digitsValue_natDigits]
  by_cases hneg : n.toInt < 0
  · rw [if_pos hneg, if_pos rfl]
    omega
  · rw [if_neg hneg, if_neg (by decide)]
    omega

end Placeholder.Number
