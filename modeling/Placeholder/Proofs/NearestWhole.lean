import Mathlib
import Placeholder.Number.Numeral
import Placeholder.Proofs.NonzeroFloat
import Placeholder.Proofs.WrittenNumbers

/-!
# Whole numbers through the nearest float

A float holds the first 53 binary digits of a whole number. The number read back from the float is
the nearest multiple of the place value of the last digit held; it is the number itself exactly when
no digit is lost.
-/

namespace Placeholder.Number

open Float.Model (Format totalExponent UnpackedFloat)
open Float.Model.UnpackedFloat

/-- A multiple of `unit` that lies no farther from `n` than half of it. -/
structure IsNearest (unit n w : Nat) : Prop where
  multiple : unit ∣ w
  below : 2 * n ≤ 2 * w + unit
  above : 2 * w ≤ 2 * n + unit

theorem IsNearest.eq_iff {unit n w : Nat} (h : IsNearest unit n w) (hunit : 0 < unit) :
    w = n ↔ unit ∣ n := by
  constructor
  · rintro rfl
    exact h.multiple
  · rintro ⟨b, rfl⟩
    obtain ⟨a, rfl⟩ := h.multiple
    have hbelow := h.below
    have habove := h.above
    have hab : ¬ a + 1 ≤ b := fun hlt => by
      have := Nat.mul_le_mul_left unit hlt
      rw [Nat.mul_add] at this
      omega
    have hba : ¬ b + 1 ≤ a := fun hlt => by
      have := Nat.mul_le_mul_left unit hlt
      rw [Nat.mul_add] at this
      omega
    rw [Nat.le_antisymm (by omega : a ≤ b) (by omega)]

theorem IsNearest.of_mul {unit n w k : Nat} (hk : 0 < k)
    (h : IsNearest (unit * k) (n * k) (w * k)) : IsNearest unit n w where
  multiple := (Nat.mul_dvd_mul_iff_right hk).mp h.multiple
  below := by
    have hbelow := h.below
    refine Nat.le_of_mul_le_mul_right (c := k) ?_ hk
    rw [Nat.add_mul, Nat.mul_assoc, Nat.mul_assoc]
    exact hbelow
  above := by
    have habove := h.above
    refine Nat.le_of_mul_le_mul_right (c := k) ?_ hk
    rw [Nat.add_mul, Nat.mul_assoc, Nat.mul_assoc]
    exact habove

/-! ### Shifting to the significand -/

/-- The two bits that are kept of the digits shifted out say how `rest` compares with a half of
`unit`. -/
def Locates (m : ExtendedMantissa) (rest unit : Nat) : Prop :=
  rest < unit ∧
    match m.roundBit, m.stickyBit with
    | false, false => rest = 0
    | false, true => 0 < rest ∧ 2 * rest < unit
    | true, false => 2 * rest = unit
    | true, true => unit < 2 * rest

theorem Locates.shiftRightOne {m : ExtendedMantissa} {rest unit : Nat} (h : Locates m rest unit) :
    Locates m.shiftRightOne (rest + m.mantissa % 2 * unit) (2 * unit) := by
  obtain ⟨n, round, sticky⟩ := m
  obtain ⟨hrest, h⟩ := h
  rcases Nat.mod_two_eq_zero_or_one n with hn | hn <;> cases round <;> cases sticky <;>
    simp [Locates, ExtendedMantissa.shiftRightOne, hn] at h ⊢ <;> omega

theorem locates_shiftRight (n k : Nat) :
    Locates (ExtendedMantissa.ofMantissaAndAccuracy n .exact >>> k) (n % 2 ^ k) (2 ^ k) := by
  induction k with
  | zero =>
    refine ⟨?_, ?_⟩
    · rw [pow_zero, Nat.mod_one]
      exact Nat.one_pos
    · exact Nat.mod_one n
  | succ k ih =>
    have hmantissa : (ExtendedMantissa.ofMantissaAndAccuracy n .exact >>> k).mantissa =
        n / 2 ^ k := mantissa_shiftRight _ k
    have hstep := ih.shiftRightOne
    rw [hmantissa, Nat.mul_comm _ (2 ^ k), ← Nat.mod_mul, ← Nat.pow_succ, Nat.mul_comm 2,
      ← Nat.pow_succ] at hstep
    exact hstep

theorem Locates.isNearest {m : ExtendedMantissa} {rest unit : Nat} (h : Locates m rest unit) :
    IsNearest unit (m.mantissa * unit + rest) (m.roundedMantissa * unit) := by
  obtain ⟨n, round, sticky⟩ := m
  obtain ⟨hrest, h⟩ := h
  refine ⟨Nat.dvd_mul_left _ _, ?_, ?_⟩ <;>
  rcases Nat.mod_two_eq_zero_or_one n with hn | hn <;> cases round <;> cases sticky <;>
    simp [ExtendedMantissa.roundedMantissa, ExtendedMantissa.accuracy,
      Accuracy.roundToNearestEven, hn, Nat.add_mul] at h ⊢ <;> omega

theorem isNearest_shiftRight (n k : Nat) :
    IsNearest (2 ^ k) n
      ((ExtendedMantissa.ofMantissaAndAccuracy n .exact >>> k).roundedMantissa * 2 ^ k) := by
  have h := (locates_shiftRight n k).isNearest
  have hmantissa : (ExtendedMantissa.ofMantissaAndAccuracy n .exact >>> k).mantissa =
      n / 2 ^ k := mantissa_shiftRight _ k
  rw [hmantissa, Nat.div_add_mod'] at h
  exact h

/-! ### Rounding to a float -/

theorem roundedMantissa_le (m : ExtendedMantissa) : m.roundedMantissa ≤ m.mantissa + 1 := by
  obtain ⟨n, round, sticky⟩ := m
  have hparity := Nat.mod_lt n Nat.two_pos
  cases round <;> cases sticky <;>
    simp [ExtendedMantissa.roundedMantissa, ExtendedMantissa.accuracy, Accuracy.roundToNearestEven]
  omega

/-- A number between the powers 52 and 53 of two is a significand, up to a last factor of two. -/
theorem exists_significand {r : Nat} (hleast : 2 ^ 52 ≤ r) (hgreatest : r ≤ 2 ^ 53) :
    ∃ m c, r = m * 2 ^ c ∧ m.log2 = 52 := by
  rcases Nat.lt_or_eq_of_le hgreatest with hlt | rfl
  · exact ⟨r, 0, (Nat.mul_one r).symm, (Nat.log2_eq_iff (by omega)).mpr ⟨hleast, hlt⟩⟩
  · exact ⟨2 ^ 52, 1, by decide, Nat.log2_two_pow⟩

theorem ne_zero_of_log2 {m k : Nat} (hlog : m.log2 = 52 + k) : m ≠ 0 := by
  rintro rfl
  rw [Nat.log2_zero] at hlog
  omega

/-- Of a number with more than 52 digits behind the first, rounding keeps a nearest multiple. -/
theorem exists_roundWithAccuracy (s : Sign) {m k : Nat} {e : Int} (hlog : m.log2 = 52 + k)
    (he : -1074 ≤ e + k) :
    ∃ m' j, ∃ hm : 0 < m', k ≤ j ∧ m'.log2 = 52 ∧ IsNearest (2 ^ k) m (m' * 2 ^ j) ∧
      roundWithAccuracy Format.binary64 s m e .exact = .finite s m' (e + j) hm := by
  have hlower := mantissa_le_roundedMantissa (ExtendedMantissa.ofMantissaAndAccuracy m .exact >>> k)
  have hupper := roundedMantissa_le (ExtendedMantissa.ofMantissaAndAccuracy m .exact >>> k)
  rw [mantissa_shiftRight] at hlower hupper
  change m / 2 ^ k ≤ _ at hlower
  change _ ≤ m / 2 ^ k + 1 at hupper
  obtain ⟨hleast, hgreatest⟩ := (Nat.log2_eq_iff (ne_zero_of_log2 hlog)).mp hlog
  have hfits : 2 ^ 52 ≤ m / 2 ^ k ∧ m / 2 ^ k < 2 ^ 53 := by
    rw [Nat.le_div_iff_mul_le (Nat.two_pow_pos k), Nat.div_lt_iff_lt_mul (Nat.two_pow_pos k),
      ← Nat.pow_add, ← Nat.pow_add]
    exact ⟨hleast, by rwa [Nat.add_right_comm] at hgreatest⟩
  -- Rounding up may carry into the next power of two; the second shift then drops a zero.
  obtain ⟨m', c, hr, hm'⟩ := exists_significand (hfits.1.trans hlower) (by omega)
  have hpos : m' ≠ 0 := ne_zero_of_log2 (k := 0) hm'
  have hsecond : shiftToTargetExponent Format.binary64 (m' * 2 ^ c) (e + k) .exact =
      (ExtendedMantissa.ofMantissaAndAccuracy (m' * 2 ^ c) .exact >>> c, e + k + c) :=
    shiftToTargetExponent_of_log2 (by rw [log2_mul_two_pow hpos, hm']) (by omega)
  have hmantissa : (ExtendedMantissa.ofMantissaAndAccuracy (m' * 2 ^ c) .exact >>> c).mantissa =
      m' := (mantissa_shiftRight _ c).trans (Nat.mul_div_cancel m' (Nat.two_pow_pos c))
  refine ⟨m', k + c, Nat.pos_of_ne_zero hpos, Nat.le_add_right k c, hm', ?_, ?_⟩
  · have hnearest := isNearest_shiftRight m k
    rw [hr, Nat.mul_assoc, ← Nat.pow_add, Nat.add_comm c] at hnearest
    exact hnearest
  · simp only [roundWithAccuracy, shiftToTargetExponent_of_log2 hlog he, hr, hsecond, hmantissa,
      dif_neg hpos, Nat.cast_add, add_assoc]

/-! ### Reading a float back -/

theorem toNat_packComponents (e : BitVec 11) (m : BitVec 52) :
    (packComponents Format.binary64 .positive e m).toNat = e.toNat * 2 ^ 52 + m.toNat := by
  change (0#1 ++ e ++ m).toNat = _
  rw [BitVec.toNat_append, BitVec.toNat_append, BitVec.toNat_ofNat, Nat.zero_mod,
    Nat.zero_shiftLeft, Nat.zero_or, ← Nat.shiftLeft_add_eq_or_of_lt m.isLt, Nat.shiftLeft_eq]

theorem fields_of_packComponents {x : Float} {e : BitVec 11} {m : BitVec 52}
    (h : x.toModel.toBits.toBitVec = packComponents Format.binary64 .positive e m) :
    signBit x = false ∧ exponentBits x = e.toNat ∧ fractionBits x = m.toNat := by
  have hbits : x.toBits.toNat = e.toNat * 2 ^ 52 + m.toNat := by
    rw [← toNat_packComponents, ← h]
    rfl
  have he := e.isLt
  have hm := m.isLt
  have hpow : Nat.pow 2 52 = 2 ^ 52 := rfl
  have hpow' : Nat.pow 2 63 = 2 ^ 63 := rfl
  refine ⟨?_, ?_, ?_⟩
  · rw [signBit, hbits, hpow', decide_eq_false_iff_not]
    omega
  · rw [exponentBits, hbits, hpow]
    omega
  · rw [fractionBits, hbits, hpow]
    omega

theorem binary?_of_normal {x : Float} {m : Nat} {e : Int} {hm : 0 < m}
    (h : x.toModel = Float.Model.pack (.finite .positive m e hm)) (hlog : m.log2 = 52)
    (hleast : -1074 ≤ e) (hgreatest : e ≤ 971) : binary? x = some ⟨false, m, e⟩ := by
  have hpack : x.toModel.toBits.toBitVec = packComponents Format.binary64 .positive
      (BitVec.ofNat 11 (e + 1023 + 52).toNat) (BitVec.ofNat 52 m) := by
    rw [h]
    exact pack_of_log2 .positive hm hlog hgreatest
  obtain ⟨hsign, hexponent, hfraction⟩ := fields_of_packComponents hpack
  rw [BitVec.toNat_ofNat] at hexponent hfraction
  obtain ⟨hlower, hupper⟩ := (Nat.log2_eq_iff hm.ne').mp hlog
  have hpow : Nat.pow 2 52 = 2 ^ 52 := rfl
  unfold binary?
  split
  · omega
  · omega
  · next biased _ heq =>
    have he : (biased : Int) - 1074 = e := by omega
    have hm' : Nat.pow 2 52 + fractionBits x = m := by omega
    rw [hsign, he, hm']

theorem truncate_of_infinity {x : Float}
    (h : x.toModel.toBits.toBitVec = packComponents Format.binary64 .positive (-1#11) 0#52) :
    truncate x = Int64.maxValue := by
  obtain ⟨hsign, hexponent, hfraction⟩ := fields_of_packComponents h
  change exponentBits x = 2047 at hexponent
  change fractionBits x = 0 at hfraction
  have hbinary : binary? x = none := by
    simp only [binary?, hexponent]
  have hnumber : isNotANumber x = false := by
    rw [isNotANumber, hfraction]
    simp
  rw [truncate, saturate, hbinary]
  simp only [hnumber, hsign, Bool.false_eq_true, if_false]

theorem clampInt64_of_le {n : Int} (h : Int64.maxValue.toInt ≤ n) :
    clampInt64 n = Int64.maxValue := by
  have hmax := Int64.toInt_maxValue
  have hmin := Int64.toInt_minValue
  unfold clampInt64
  rw [if_neg (by omega)]
  split_ifs with hlarge
  · rfl
  · have heq : n = Int64.maxValue.toInt := by omega
    rw [heq, Int64.ofInt_toInt]

theorem truncate_of_pack {x : Float} {m : Nat} {e : Int} {hm : 0 < m}
    (h : x.toModel = Float.Model.pack (.finite .positive m e hm)) (hlog : m.log2 = 52)
    (hleast : -1074 ≤ e) : truncate x = clampInt64 (Binary.wholePart ⟨false, m, e⟩) := by
  rcases le_or_gt e 971 with hgreatest | hover
  · rw [truncate, saturate, binary?_of_normal h hlog hleast hgreatest]
    rfl
  · have hbiased : 2 ^ 11 ≤ (e + 1023 + 52).toNat + 1 := by omega
    have hinfinity : truncate x = Int64.maxValue := by
      refine truncate_of_infinity ?_
      rw [h]
      exact if_pos hbiased
    have hlower : 2 ^ 52 ≤ m := ((Nat.log2_eq_iff hm.ne').mp hlog).1
    have hpower : 2 ^ 11 ≤ 2 ^ e.toNat := Nat.pow_le_pow_right Nat.two_pos (by omega)
    have hlarge : 2 ^ 52 * 2 ^ 11 ≤ m * 2 ^ e.toNat := Nat.mul_le_mul hlower hpower
    have hwhole : Binary.wholePart ⟨false, m, e⟩ = m * 2 ^ e.toNat :=
      if_pos (show 0 ≤ e by omega)
    have hmax := Int64.toInt_maxValue
    rw [hinfinity, hwhole, clampInt64_of_le]
    omega

/-! ### There and back -/

theorem truncate_nearestFloat_zero : truncate (nearestFloat false 0 0) = 0 := by
  have hbits : (nearestFloat false 0 0).toModel.toBits.toBitVec =
      packComponents Format.binary64 .positive 0#11 0#52 := by rfl
  obtain ⟨hsign, hexponent, hfraction⟩ := fields_of_packComponents hbits
  change exponentBits _ = 0 at hexponent
  change fractionBits _ = 0 at hfraction
  have hbinary : binary? (nearestFloat false 0 0) = some ⟨false, 0, -1074⟩ := by
    simp only [binary?, hexponent, hsign, hfraction]
  have hwhole : Binary.wholePart ⟨false, 0, -1074⟩ = 0 := by
    rw [Binary.wholePart, if_neg (by decide), Nat.zero_div]
  rw [truncate, saturate, hbinary]
  simp only [Binary.truncate, hwhole]
  rfl

/-- The place value of the last binary digit of `n` that a float holds. -/
def place (n : Nat) : Nat :=
  2 ^ (n.log2 - 52)

theorem exists_truncate_ofNat_of_le {n : Nat} (hn : 2 ^ 53 ≤ n) :
    ∃ w, IsNearest (place n) n w ∧ truncate (Float.ofNat n) = clampInt64 w := by
  have hne : n ≠ 0 := by omega
  have hlog : 53 ≤ n.log2 := (Nat.le_log2 hne).mpr hn
  obtain ⟨m, j, hm, hj, hm52, hnearest, hround⟩ :=
    exists_roundWithAccuracy .positive (k := n.log2 + 1) (e := -53)
      ((log2_mul_two_pow hne 53).trans (by omega)) (by omega)
  have hmodel := toModel_ofNat_of_le hn
  rw [hround] at hmodel
  have hexponent : ((-53 + (j : Int)).toNat) = j - 53 := by omega
  have hsplit : m * 2 ^ j = m * 2 ^ (j - 53) * 2 ^ 53 := by
    rw [Nat.mul_assoc, ← Nat.pow_add, Nat.sub_add_cancel (by omega)]
  have hplace : 2 ^ (n.log2 + 1) = place n * 2 ^ 53 := by
    rw [place, ← Nat.pow_add]
    congr 1
    omega
  rw [hsplit, hplace] at hnearest
  refine ⟨m * 2 ^ (j - 53), hnearest.of_mul (by decide), ?_⟩
  rw [truncate_of_pack hmodel hm52 (by omega), Binary.wholePart]
  simp only [hexponent]
  rw [if_pos (by omega)]
  rfl

/-- Multiplying by one loses nothing of a significand of full width. -/
theorem mul_one_of_log2 {m : Nat} {e : Int} {hm : 0 < m} (hlog : m.log2 = 52) (he : -1074 ≤ e) :
    mul Format.binary64 (.finite .positive m e hm) (.finite .positive (2 ^ 52) (-52) (by decide)) =
      .finite .positive m e hm := by
  obtain ⟨m', j, hm', -, hlog', hnearest, hround⟩ :=
    exists_roundWithAccuracy .positive (m := m * 2 ^ 52) (k := 52) (e := e + -52)
      (by rw [log2_mul_two_pow hm.ne', hlog]) (by omega)
  have hproduct : m' * 2 ^ j = m * 2 ^ 52 :=
    (hnearest.eq_iff (by decide)).mpr (Nat.dvd_mul_left _ _)
  have hj : j = 52 := by
    have hlogs := congrArg Nat.log2 hproduct
    rw [log2_mul_two_pow hm'.ne', log2_mul_two_pow hm.ne'] at hlogs
    omega
  subst hj
  have hsame : m' = m := Nat.eq_of_mul_eq_mul_right (Nat.two_pow_pos 52) hproduct
  subst hsame
  have hexponent : e + -52 + ((52 : Nat) : Int) = e := by omega
  rw [mul]
  simp only [hexponent] at hround
  exact hround

theorem truncate_ofNat_of_lt {n : Nat} (hn : 0 < n) (hfits : n < 2 ^ 53) :
    truncate (Float.ofNat n) = clampInt64 n := by
  obtain ⟨hpos, hlog, hscaled, hround⟩ := exists_round hn hfits
  have hmodel := toModel_ofNat_of_lt hn hfits
  rw [hround, mul_one_of_log2 hscaled (by omega)] at hmodel
  have hwhole : Binary.wholePart ⟨false, n * 2 ^ (52 - n.log2), n.log2 - 52⟩ = n := by
    have hpower : Nat.pow 2 (52 - n.log2) = 2 ^ (52 - n.log2) := rfl
    unfold Binary.wholePart
    split
    · next hexponent =>
      have hlog52 : n.log2 = 52 := by
        change 0 ≤ (n.log2 : Int) - 52 at hexponent
        omega
      simp [hlog52]
    · have hshift : (-((n.log2 : Int) - 52)).toNat = 52 - n.log2 := by omega
      simp only [hshift, hpower]
      exact Nat.mul_div_cancel n (Nat.two_pow_pos _)
  rw [truncate_of_pack hmodel hscaled (by omega), hwhole]

theorem place_pos (n : Nat) : 0 < place n :=
  Nat.two_pow_pos _

theorem place_of_lt {n : Nat} (hfits : n < 2 ^ 53) : place n = 1 := by
  have hlog : n.log2 ≤ 52 := by
    by_cases hn : n = 0
    · simp [hn]
    · have hlt := (Nat.log2_lt hn).mpr hfits
      omega
  rw [place, Nat.sub_eq_zero_of_le hlog, pow_zero]

theorem place_le {n : Nat} (hn : n ≠ 0) : place n ≤ n :=
  le_trans (Nat.pow_le_pow_right Nat.two_pos (Nat.sub_le _ _)) (Nat.log2_self_le hn)

theorem toInt_clampInt64 (n : Nat) :
    (clampInt64 n).toInt = if n < 2 ^ 63 then (n : Int) else 2 ^ 63 - 1 := by
  have hmax := Int64.toInt_maxValue
  split_ifs with hsmall
  · exact toInt_clampInt64_of_bounds (by omega) (by omega)
  · rw [clampInt64_of_le (by omega), hmax]

theorem nearestFloat_eq_ofNat {n : Nat} (hn : n ≠ 0) (hlog : n.log2 < 1333) :
    nearestFloat false n 0 = Float.ofNat n := by
  have hsize : ¬ 400 < (n.log2 : Int) * 30103 / 100000 + 0 := by omega
  have hsize' : ¬ (n.log2 : Int) * 30103 / 100000 + 0 < -400 := by omega
  unfold nearestFloat
  simp only [if_neg hn, if_neg hsize, if_neg hsize']
  rfl

theorem truncate_nearestFloat_of_log2 {n : Nat} (hlog : 1333 ≤ n.log2) :
    truncate (nearestFloat false n 0) = Int64.maxValue := by
  have hn : n ≠ 0 := by
    rintro rfl
    rw [Nat.log2_zero] at hlog
    omega
  have hsize : 400 < (n.log2 : Int) * 30103 / 100000 + 0 := by omega
  have hinfinite : nearestFloat false n 0 = 1.0 / 0.0 := by
    unfold nearestFloat
    simp only [if_neg hn, if_pos hsize]
    rfl
  rw [hinfinite]
  exact truncate_of_infinity (by rfl)

theorem exists_truncate_nearestFloat (n : Nat) :
    ∃ w, IsNearest (place n) n w ∧ truncate (nearestFloat false n 0) = clampInt64 w := by
  by_cases hn : n = 0
  · subst hn
    refine ⟨0, ⟨Nat.dvd_zero _, Nat.zero_le _, Nat.zero_le _⟩, ?_⟩
    rw [truncate_nearestFloat_zero]
    rfl
  rcases Nat.lt_or_ge n (2 ^ 53) with hfits | hlarge
  · have hlog : n.log2 < 53 := (Nat.log2_lt hn).mpr hfits
    refine ⟨n, ⟨?_, by omega, by omega⟩, ?_⟩
    · rw [place_of_lt hfits]
      exact Nat.one_dvd n
    · rw [nearestFloat_eq_ofNat hn (by omega), truncate_ofNat_of_lt (Nat.pos_of_ne_zero hn) hfits]
  · obtain ⟨w, hnearest, htruncate⟩ := exists_truncate_ofNat_of_le hlarge
    refine ⟨w, hnearest, ?_⟩
    rcases Nat.lt_or_ge n.log2 1333 with hlog | hlog
    · rw [nearestFloat_eq_ofNat hn hlog, htruncate]
    · have hlower : 2 ^ 64 ≤ n := le_trans (Nat.pow_le_pow_right Nat.two_pos (by omega))
        (Nat.log2_self_le hn)
      have hplace := place_le hn
      have hbelow := hnearest.below
      have hmax := Int64.toInt_maxValue
      rw [truncate_nearestFloat_of_log2 hlog, clampInt64_of_le (by omega)]

/-- Digits of a number that a float holds: none is lost, or the number is the largest of 64 bits, to
which every larger one is cut. -/
def Held (n : Nat) : Prop :=
  n < 2 ^ 63 ∧ place n ∣ n ∨ n = 2 ^ 63 - 1

instance : DecidablePred Held := fun n =>
  inferInstanceAs (Decidable (n < 2 ^ 63 ∧ place n ∣ n ∨ n = 2 ^ 63 - 1))

theorem toInt_truncate_nearestFloat_eq_iff (n : Nat) :
    (truncate (nearestFloat false n 0)).toInt = n ↔ Held n := by
  obtain ⟨w, hnearest, htruncate⟩ := exists_truncate_nearestFloat n
  have hexact := hnearest.eq_iff (place_pos n)
  rw [htruncate, toInt_clampInt64, Held, ← hexact]
  by_cases hlargest : n = 2 ^ 63 - 1
  · -- The significand of the largest integer is rounded up to the next power of two.
    have hplace : place n = 2 ^ 10 := by
      have hlog : n.log2 = 62 := (Nat.log2_eq_iff (by omega)).mpr ⟨by omega, by omega⟩
      rw [place, hlog]
    obtain ⟨c, rfl⟩ := hnearest.multiple
    have hbelow := hnearest.below
    rw [hplace] at hbelow ⊢
    rw [if_neg (by omega)]
    omega
  · split_ifs with hsmall <;> omega

theorem toInt_truncate_nearestFloat_of_lt {n : Nat} (hfits : n < 2 ^ 53) :
    (truncate (nearestFloat false n 0)).toInt = n := by
  refine (toInt_truncate_nearestFloat_eq_iff n).mpr (Or.inl ⟨by omega, ?_⟩)
  rw [place_of_lt hfits]
  exact Nat.one_dvd n

theorem le_toInt_truncate_nearestFloat {n : Nat} (hlarge : 2 ^ 53 ≤ n) :
    2 ^ 53 ≤ (truncate (nearestFloat false n 0)).toInt := by
  obtain ⟨w, hnearest, htruncate⟩ := exists_truncate_nearestFloat n
  have hne : n ≠ 0 := by omega
  have hlog : 53 ≤ n.log2 := (Nat.le_log2 hne).mpr hlarge
  have hplace : 2 ^ 1 ≤ place n := Nat.pow_le_pow_right Nat.two_pos (by omega)
  have hdigits : 2 ^ 52 * place n ≤ n := by
    rw [place, ← Nat.pow_add, Nat.add_sub_cancel' (by omega)]
    exact Nat.log2_self_le hne
  obtain ⟨c, rfl⟩ := hnearest.multiple
  have hc : 2 ^ 52 ≤ c := by
    have hbelow := hnearest.below
    by_contra hlt
    have hmul : place n * (c + 1) ≤ place n * 2 ^ 52 := Nat.mul_le_mul_left _ (by omega)
    rw [Nat.mul_add] at hmul
    omega
  have hw : 2 ^ 1 * 2 ^ 52 ≤ place n * c := Nat.mul_le_mul hplace hc
  rw [htruncate, toInt_clampInt64]
  split_ifs <;> omega

end Placeholder.Number
