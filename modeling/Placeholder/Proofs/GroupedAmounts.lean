import Mathlib
import Placeholder.Formatter.Numbers
import Placeholder.Proofs.WrittenNumbers

/-!
# Amounts in groups of digits

The text of an amount is a minus sign, if the rounded amount is below zero, the digits of its whole
part in groups, and the digits of its fraction. The groups hold the digits of the whole part, no
more and no less, and only the first of them may have fewer than three. That settles the groups, and
with them the text. The decimal that is written is the one that stands for the number, with a half
rounded away from zero; the zeros behind it do not change its value.
-/

namespace Placeholder

namespace Text

/-! ### Whole parts and fractions -/

theorem natDigits_of_ten_le {n : Nat} (h : 10 ≤ n) :
    natDigits n = natDigits (n / 10) ++ natDigits (n % 10) := by
  have hsplit := Nat.toDigits_append_toDigits (b := 10) (n := n / 10) (d := n % 10) (by decide)
    (by omega) (by omega)
  rw [Nat.div_add_mod] at hsplit
  exact hsplit.symm

theorem length_natDigits_of_lt_ten {n : Nat} (h : n < 10) : (natDigits n).length = 1 := by
  rw [natDigits, Nat.toDigits_of_lt_base h]
  rfl

theorem padded_succ {width : Nat} (hwidth : 0 < width) (n : Nat) :
    padded (width + 1) n = padded width (n / 10) ++ natDigits (n % 10) := by
  by_cases h : 10 ≤ n
  · have hlast := length_natDigits_of_lt_ten (Nat.mod_lt n (by decide : 0 < 10))
    have hzeros : width + 1 - ((natDigits (n / 10)).length + 1) =
        width - (natDigits (n / 10)).length := by omega
    rw [padded, padded, padZeros, padZeros, natDigits_of_ten_le h, List.length_append, hlast,
      hzeros, List.append_assoc]
  · have hn : n < 10 := by omega
    have hone := length_natDigits_of_lt_ten hn
    have hzero : natDigits 0 = ['0'] := by decide
    obtain ⟨k, rfl⟩ : ∃ k, width = k + 1 := ⟨width - 1, by omega⟩
    rw [padded, padded, padZeros, padZeros, hone, Nat.div_eq_of_lt hn, Nat.mod_eq_of_lt hn, hzero,
      List.length_singleton, Nat.add_sub_cancel, Nat.add_sub_cancel, List.replicate_succ']

/-- The digits behind the point; without places there are none. -/
def fractionDigits (places n : Nat) : List Char :=
  if places = 0 then [] else padded places (n % 10 ^ places)

theorem length_fractionDigits (places n : Nat) : (fractionDigits places n).length = places := by
  unfold fractionDigits
  split_ifs with h
  · exact h.symm
  · exact length_padded (Nat.pos_of_ne_zero h) (Nat.mod_lt n (by positivity))

theorem isDigit_of_mem_fractionDigits (places n : Nat) :
    ∀ c ∈ fractionDigits places n, c.isDigit = true := by
  unfold fractionDigits
  split_ifs with h
  · exact List.forall_mem_nil _
  · exact isDigit_of_mem_padded

theorem digitsValue_fractionDigits (places n : Nat) :
    digitsValue (fractionDigits places n) = n % 10 ^ places := by
  unfold fractionDigits
  split_ifs with h
  · rw [h, pow_zero, Nat.mod_one]
    rfl
  · exact digitsValue_padded _ _

theorem fractionDigits_succ (places n : Nat) :
    fractionDigits (places + 1) n = fractionDigits places (n / 10) ++ natDigits (n % 10) := by
  have hmod : n % 10 ^ (places + 1) % 10 = n % 10 :=
    Nat.mod_mod_of_dvd n (dvd_pow_self 10 (Nat.succ_ne_zero places))
  have hdiv : n % 10 ^ (places + 1) / 10 = n / 10 % 10 ^ places := by
    rw [pow_succ', Nat.mod_mul_right_div_self]
  unfold fractionDigits
  rw [if_neg (Nat.succ_ne_zero places)]
  split_ifs with h
  · subst h
    rw [zero_add, pow_one]
    have hlast := length_natDigits_of_lt_ten (Nat.mod_lt n (by decide : 0 < 10))
    rw [padded, padZeros, hlast]
    rfl
  · rw [padded_succ (Nat.pos_of_ne_zero h), hmod, hdiv]

/-- A number padded beyond its places is its whole part and the digits behind the point. -/
theorem padded_eq_whole_append (places n : Nat) :
    padded (places + 1) n = natDigits (n / 10 ^ places) ++ fractionDigits places n := by
  induction places generalizing n with
  | zero =>
    have hpos : 1 ≤ (natDigits n).length := List.length_pos_iff.mpr Nat.toDigits_ne_nil
    have hzeros : 0 + 1 - (natDigits n).length = 0 := by omega
    rw [padded, padZeros, hzeros, pow_zero, Nat.div_one, fractionDigits, if_pos rfl,
      List.append_nil]
    rfl
  | succ places ih =>
    rw [padded_succ (Nat.succ_pos places), ih, Nat.div_div_eq_div_mul, ← pow_succ',
      fractionDigits_succ, List.append_assoc]

end Text

namespace Number

open Text (natDigits digitsValue fractionDigits)

/-! ### Groups -/

/-- Digits in groups of three; the first group may be shorter, but it is not empty. -/
structure InThrees (groups : List (List Char)) : Prop where
  digits : ∀ g ∈ groups, ∀ c ∈ g, c.isDigit = true
  first : ∀ g ∈ groups.head?, 1 ≤ g.length ∧ g.length ≤ 3
  rest : ∀ g ∈ groups.tail, g.length = 3

theorem digitGroups_cons_of_eq {cs g : List Char} {gs : List (List Char)}
    (h : digitGroups cs = g :: gs) (c : Char) :
    digitGroups (c :: cs) =
      if cs.length % 3 = 0 then [c] :: g :: gs else (c :: g) :: gs := by
  rw [digitGroups, h]

theorem digitGroups_cons (c : Char) (cs : List Char) :
    ∃ g gs, digitGroups (c :: cs) = g :: gs ∧ g.length = cs.length % 3 + 1 ∧
      (∀ h ∈ gs, h.length = 3) ∧ (g :: gs).flatten = c :: cs := by
  induction cs generalizing c with
  | nil => exact ⟨[c], [], rfl, rfl, List.forall_mem_nil _, rfl⟩
  | cons d cs ih =>
    obtain ⟨g, gs, hgroups, hfirst, hrest, hflatten⟩ := ih d
    rw [digitGroups_cons_of_eq hgroups, List.length_cons]
    by_cases hfull : (cs.length + 1) % 3 = 0
    · -- The group on the right is complete, so a new one is begun.
      have hthree : g.length = 3 := by omega
      refine ⟨[c], g :: gs, by rw [if_pos hfull], by rw [hfull]; rfl,
        List.forall_mem_cons.mpr ⟨hthree, hrest⟩, ?_⟩
      rw [List.flatten_cons, hflatten, List.singleton_append]
    · refine ⟨c :: g, gs, by rw [if_neg hfull], ?_, hrest, ?_⟩
      · rw [List.length_cons, hfirst]
        omega
      · rw [List.flatten_cons, List.cons_append, ← List.flatten_cons, hflatten]

theorem flatten_digitGroups (cs : List Char) : (digitGroups cs).flatten = cs := by
  cases cs with
  | nil => rfl
  | cons c cs =>
    obtain ⟨g, gs, hgroups, -, -, hflatten⟩ := digitGroups_cons c cs
    rw [hgroups, hflatten]

theorem inThrees_digitGroups {cs : List Char} (hcs : ∀ c ∈ cs, c.isDigit = true) :
    InThrees (digitGroups cs) := by
  have hdigits : ∀ g ∈ digitGroups cs, ∀ c ∈ g, c.isDigit = true := by
    intro g hg c hc
    have hmem : c ∈ (digitGroups cs).flatten := List.mem_flatten_of_mem hg hc
    rw [flatten_digitGroups] at hmem
    exact hcs c hmem
  cases cs with
  | nil => exact ⟨hdigits, by simp [digitGroups], by simp [digitGroups]⟩
  | cons c cs =>
    obtain ⟨g, gs, hgroups, hfirst, hrest, -⟩ := digitGroups_cons c cs
    refine ⟨hdigits, ?_, ?_⟩
    · rw [hgroups]
      rintro h ⟨⟩
      omega
    · rw [hgroups]
      exact hrest

theorem InThrees.eq_nil {gs : List (List Char)} (h : InThrees gs) (hflatten : gs.flatten = []) :
    gs = [] := by
  cases gs with
  | nil => rfl
  | cons a gs =>
    obtain ⟨hpos, -⟩ := h.first a rfl
    rw [List.flatten_cons, List.append_eq_nil_iff] at hflatten
    rw [hflatten.1] at hpos
    contradiction

theorem InThrees.lengths {a : List Char} {gs : List (List Char)} (h : InThrees (a :: gs)) :
    (a :: gs).map List.length = a.length :: List.replicate gs.length 3 := by
  rw [List.map_cons, List.cons_inj_right, List.eq_replicate_iff]
  exact ⟨List.length_map _, by simpa using h.rest⟩

/-- The digits settle their groups: their number leaves no choice for the first group. -/
theorem InThrees.eq_of_flatten_eq {gs hs : List (List Char)} (hgs : InThrees gs)
    (hhs : InThrees hs) (h : gs.flatten = hs.flatten) : gs = hs := by
  cases gs with
  | nil => exact (hhs.eq_nil h.symm).symm
  | cons a gs =>
    cases hs with
    | nil => exact hgs.eq_nil h
    | cons b hs =>
      have ha := hgs.first a rfl
      have hb := hhs.first b rfl
      have htotal := congrArg List.length h
      rw [List.length_flatten, List.length_flatten, hgs.lengths, hhs.lengths, List.sum_cons,
        List.sum_cons, List.sum_replicate, List.sum_replicate, smul_eq_mul, smul_eq_mul] at htotal
      have hfirst : a.length = b.length := by omega
      have hcount : gs.length = hs.length := by omega
      refine List.eq_iff_flatten_eq.mpr ⟨h, ?_⟩
      rw [hgs.lengths, hhs.lengths, hfirst, hcount]

/-! ### The value of a decimal -/

namespace Fixed

def value (d : Fixed) : ℚ :=
  (if d.negative then -1 else 1) * (d.mantissa / 10 ^ d.places)

/-- A number rounded to some places; a half goes away from zero. -/
def halfAway (q : ℚ) (places : Nat) : ℚ :=
  (if q < 0 then -1 else 1) * (⌊|q| * 10 ^ places + 1 / 2⌋₊ / 10 ^ places)

theorem abs_value (d : Fixed) : |d.value| = d.mantissa / 10 ^ d.places := by
  have hnonneg : (0 : ℚ) ≤ d.mantissa / 10 ^ d.places := by positivity
  unfold value
  split_ifs with h
  · rw [neg_one_mul, abs_neg, abs_of_nonneg hnonneg]
  · rw [one_mul, abs_of_nonneg hnonneg]

theorem value_neg_iff (d : Fixed) : d.value < 0 ↔ d.negative = true ∧ d.mantissa ≠ 0 := by
  have hpow : (0 : ℚ) < 10 ^ d.places := by positivity
  have hpos : (0 : ℚ) < d.mantissa / 10 ^ d.places ↔ d.mantissa ≠ 0 := by
    rw [div_pos_iff_of_pos_right hpow, Nat.cast_pos, Nat.pos_iff_ne_zero]
  have hnonneg : (0 : ℚ) ≤ d.mantissa / 10 ^ d.places := by positivity
  unfold value
  split_ifs with h
  · rw [neg_one_mul, neg_lt_zero, hpos]
    exact ⟨fun hm => ⟨h, hm⟩, And.right⟩
  · rw [one_mul]
    exact ⟨fun hm => absurd hm (not_lt.mpr hnonneg), fun hm => absurd hm.1 h⟩

theorem floor_abs_value (d : Fixed) : ⌊|d.value|⌋₊ = d.mantissa / 10 ^ d.places := by
  rw [abs_value, ← Nat.floor_div_eq_div (K := ℚ)]
  push_cast
  rfl

theorem floor_add_half_of_le (m : Nat) {p k : Nat} (h : p ≤ k) :
    ⌊(m / 10 ^ p : ℚ) * 10 ^ k + 1 / 2⌋₊ = m * 10 ^ (k - p) := by
  obtain ⟨j, rfl⟩ := Nat.exists_eq_add_of_le h
  have hwhole : (m / 10 ^ p : ℚ) * 10 ^ (p + j) = ((m * 10 ^ j : Nat) : ℚ) := by
    rw [pow_add]
    push_cast
    field_simp
  rw [hwhole, Nat.add_sub_cancel_left, Nat.floor_eq_iff (by positivity)]
  constructor
  · linarith
  · linarith

theorem floor_add_half_of_ge (m : Nat) {p k : Nat} (h : k ≤ p) :
    ⌊(m / 10 ^ p : ℚ) * 10 ^ k + 1 / 2⌋₊ =
      (2 * m + 10 ^ (p - k)) / (2 * 10 ^ (p - k)) := by
  obtain ⟨j, rfl⟩ := Nat.exists_eq_add_of_le h
  have hquotient : (m / 10 ^ (k + j) : ℚ) * 10 ^ k + 1 / 2 =
      ((2 * m + 10 ^ j : Nat) : ℚ) / ((2 * 10 ^ j : Nat) : ℚ) := by
    rw [pow_add]
    push_cast
    field_simp
  rw [hquotient, Nat.add_sub_cancel_left, Nat.floor_div_eq_div]

theorem value_round (d : Fixed) (k : Nat) : (d.round k).value = halfAway d.value k := by
  by_cases hzero : d.mantissa = 0
  · have hvalue : d.value = 0 := by simp [value, hzero]
    have hhalf : ⌊(1 / 2 : ℚ)⌋₊ = 0 := Nat.floor_eq_zero.mpr (by norm_num)
    rw [round, if_pos hzero, hvalue, halfAway, abs_zero, zero_mul, zero_add, hhalf]
    simp [value]
  · have hsign : d.value < 0 ↔ d.negative = true := by
      rw [value_neg_iff]
      exact and_iff_left hzero
    rw [halfAway, abs_value, round, if_neg hzero]
    simp only [hsign]
    by_cases hplaces : d.places ≤ k
    · obtain ⟨j, hj⟩ := Nat.exists_eq_add_of_le hplaces
      have hexact : (d.mantissa / 10 ^ d.places : ℚ) =
          ((d.mantissa * 10 ^ (k - d.places) : Nat) : ℚ) / 10 ^ k := by
        rw [hj, Nat.add_sub_cancel_left, pow_add]
        push_cast
        field_simp
      rw [if_pos hplaces, floor_add_half_of_le d.mantissa hplaces, ← hexact]
      rfl
    · rw [if_neg hplaces, floor_add_half_of_ge d.mantissa (le_of_not_ge hplaces)]
      rfl

theorem value_appendZeros (n : Nat) (d : Fixed) : (appendZeros n d).value = d.value := by
  induction n generalizing d with
  | zero => rfl
  | succ n ih =>
    rw [appendZeros]
    split_ifs with hwidth
    · rw [ih, value, value, pow_succ']
      push_cast
      field_simp
    · rfl

/-- Zeros are appended up to the places asked for, or until the mantissa fills its width. -/
theorem places_appendZeros (n : Nat) (d : Fixed) :
    (appendZeros n d).places ≤ d.places + n ∧
      ((appendZeros n d).places = d.places + n ∨ width ≤ 10 * (appendZeros n d).mantissa) := by
  induction n generalizing d with
  | zero => exact ⟨le_refl _, Or.inl rfl⟩
  | succ n ih =>
    rw [appendZeros]
    split_ifs with hwidth
    · obtain ⟨hle, hends⟩ := ih ⟨d.negative, 10 * d.mantissa, d.places + 1⟩
      rw [Nat.add_right_comm] at hle hends
      exact ⟨hle, hends⟩
    · exact ⟨Nat.le_add_right _ _, Or.inr (not_lt.mp hwidth)⟩

theorem places_round_le (d : Fixed) (k : Nat) : (d.round k).places ≤ k := by
  unfold round
  split_ifs with hzero hplaces
  · exact le_refl k
  · exact hplaces
  · exact le_refl k

theorem digits_eq (d : Fixed) :
    d.digits = (natDigits (d.mantissa / 10 ^ d.places), fractionDigits d.places d.mantissa) := by
  have hsplit := Text.padded_eq_whole_append d.places d.mantissa
  have hlength : (Text.padded (d.places + 1) d.mantissa).length - d.places =
      (natDigits (d.mantissa / 10 ^ d.places)).length := by
    rw [hsplit, List.length_append, Text.length_fractionDigits, Nat.add_sub_cancel]
  rw [digits, hlength, hsplit, List.take_left, List.drop_left]

end Fixed

/-! ### The text of an amount -/

/-- The text of an amount with some places: the digits of its whole part in groups of three, with a
minus sign in front of an amount below zero, and its fraction behind the point, if it has places. -/
def IsAmountText (q : ℚ) (places : Nat) (point separator text : List Char) : Prop :=
  ∃ groups fraction, InThrees groups ∧ groups.flatten = natDigits ⌊|q|⌋₊ ∧
    fraction.length = places ∧ (∀ c ∈ fraction, c.isDigit = true) ∧
    |q| = ⌊|q|⌋₊ + digitsValue fraction / 10 ^ places ∧
    text = (if q < 0 then ['-'] else []) ++ separator.intercalate groups ++
      if places = 0 then [] else point ++ fraction

theorem isAmountText_grouped (d : Fixed) (point separator : List Char) :
    IsAmountText d.value d.places point separator (d.grouped point separator) := by
  have hpow : (10 : ℚ) ^ d.places ≠ 0 := by positivity
  have hsum : (d.mantissa : ℚ) / 10 ^ d.places =
      (d.mantissa / 10 ^ d.places : Nat) + (d.mantissa % 10 ^ d.places : Nat) / 10 ^ d.places := by
    rw [eq_comm, ← eq_sub_iff_add_eq', div_eq_iff hpow, sub_mul, div_mul_cancel₀ _ hpow,
      eq_sub_iff_add_eq']
    exact_mod_cast Nat.div_add_mod' d.mantissa (10 ^ d.places)
  refine ⟨digitGroups (natDigits (d.mantissa / 10 ^ d.places)),
    fractionDigits d.places d.mantissa,
    inThrees_digitGroups fun _ hc => Text.isDigit_of_mem_natDigits hc, ?_,
    Text.length_fractionDigits _ _, Text.isDigit_of_mem_fractionDigits _ _, ?_, ?_⟩
  · rw [flatten_digitGroups, d.floor_abs_value]
  · rw [d.floor_abs_value, d.abs_value, Text.digitsValue_fractionDigits]
    exact hsum
  · have hsign : (d.negative && d.mantissa != 0) = true ↔ d.value < 0 := by
      rw [d.value_neg_iff, Bool.and_eq_true, bne_iff_ne]
    have hempty : (fractionDigits d.places d.mantissa).isEmpty = true ↔ d.places = 0 := by
      rw [List.isEmpty_iff_length_eq_zero, Text.length_fractionDigits]
    simp only [Fixed.grouped, d.digits_eq, hsign, hempty]

theorem IsAmountText.unique {q : ℚ} {places : Nat} {point separator s t : List Char}
    (hs : IsAmountText q places point separator s) (ht : IsAmountText q places point separator t) :
    s = t := by
  obtain ⟨gs, fs, hgs, hwhole, hlength, hdigits, hvalue, rfl⟩ := hs
  obtain ⟨gs', fs', hgs', hwhole', hlength', hdigits', hvalue', rfl⟩ := ht
  have hpow : (10 : ℚ) ^ places ≠ 0 := by positivity
  have hgroups : gs = gs' := hgs.eq_of_flatten_eq hgs' (hwhole.trans hwhole'.symm)
  have hquotients : (digitsValue fs : ℚ) / 10 ^ places = digitsValue fs' / 10 ^ places :=
    add_left_cancel (hvalue.symm.trans hvalue')
  have hvalues : digitsValue fs = digitsValue fs' := by
    exact_mod_cast (div_left_inj' hpow).mp hquotients
  have hfractions : fs = fs' :=
    Text.eq_of_digitsValue_eq (hlength.trans hlength'.symm) hdigits hdigits' hvalues
  rw [hgroups, hfractions]

theorem fixed?_spec {x : Float} {k : Nat} {d : Fixed} (h : fixed? x k = some d) :
    ∃ e, Fixed.ofFloat? x = some e ∧ d.value = Fixed.halfAway e.value k ∧ d.places ≤ k ∧
      (d.places = k ∨ Fixed.width ≤ 10 * d.mantissa) := by
  obtain ⟨e, he, rfl⟩ := Option.map_eq_some_iff.mp h
  have hround := e.places_round_le k
  obtain ⟨hle, hends⟩ := Fixed.places_appendZeros (k - (e.round k).places) (e.round k)
  rw [Nat.add_sub_cancel' hround] at hle hends
  exact ⟨e, he, by rw [Fixed.extend, Fixed.value_appendZeros, Fixed.value_round], hle, hends⟩

end Number

namespace Formatter

open Number

theorem groupedNumber_eq_ok_iff_grouped {x : Float} {places : Int64} {point separator s : String} :
    groupedNumber x places point separator = .ok s ↔
      ∃ d, fixed? x (clampPlaces places) = some d ∧
        s = String.ofList (d.grouped point.toList separator.toList) := by
  unfold groupedNumber groupedText?
  cases fixed? x (clampPlaces places) with
  | none => simp
  | some d => simp [eq_comm]

/-- A number is written exactly as the text of the decimal that stands for it, rounded to the places
asked for. It keeps fewer places only where its mantissa fills the width. -/
theorem groupedNumber_eq_ok_iff (x : Float) (places : Int64) (point separator s : String) :
    groupedNumber x places point separator = .ok s ↔
      ∃ e d, Fixed.ofFloat? x = some e ∧ fixed? x (clampPlaces places) = some d ∧
        d.value = Fixed.halfAway e.value (clampPlaces places) ∧
        d.places ≤ clampPlaces places ∧
        (d.places = clampPlaces places ∨ Fixed.width ≤ 10 * d.mantissa) ∧
        IsAmountText d.value d.places point.toList separator.toList s.toList := by
  rw [groupedNumber_eq_ok_iff_grouped]
  constructor
  · rintro ⟨d, hd, rfl⟩
    obtain ⟨e, he, hvalue, hplaces, hends⟩ := fixed?_spec hd
    refine ⟨e, d, he, hd, hvalue, hplaces, hends, ?_⟩
    rw [String.toList_ofList]
    exact isAmountText_grouped d point.toList separator.toList
  · rintro ⟨e, d, -, hd, -, -, -, htext⟩
    refine ⟨d, hd, ?_⟩
    have hgrouped := isAmountText_grouped d point.toList separator.toList
    rw [← htext.unique hgrouped, String.ofList_toList]

example : groupedNumber 1234567.891 2 "." "," = .ok "1,234,567.89" := by rfl

example : groupedNumber (-0.004) 2 "." "," = .ok "0.00" := by rfl

end Formatter

end Placeholder
