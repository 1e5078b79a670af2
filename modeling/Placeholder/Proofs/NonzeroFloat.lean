import Mathlib
import Placeholder.Number.Binary

/-!
# Whole numbers as floats

Rounding to a float loses digits, but it does not lose a whole number other than zero: the float
nearest to it is not zero, and does not compare equal to zero.
-/

namespace Placeholder.Number

open Float.Model (Format totalExponent UnpackedFloat)
open Float.Model.UnpackedFloat

/-- A float that is not zero, with a significand and an exponent that fit the format. -/
inductive Nonzero : UnpackedFloat → Prop where
  | infinity {s : Sign} : Nonzero (.infinity s)
  | notANumber : Nonzero .notANumber
  | finite {s : Sign} {m : Nat} {e : Int} {hm : 0 < m} : m < 2 ^ 53 → -1074 ≤ e →
      Nonzero (.finite s m e hm)

theorem Nonzero.beq_zero {x : UnpackedFloat} (h : Nonzero x) (s : Sign) :
    x.beq (.zero s) = false := by
  cases h with
  | @infinity t => cases t <;> rfl
  | notANumber => rfl
  | @finite t => cases t <;> rfl

theorem Nonzero.neg {x : UnpackedFloat} (h : Nonzero x) : Nonzero x.neg := by
  cases h with
  | infinity => exact .infinity
  | notANumber => exact .notANumber
  | finite hmantissa hexponent => exact .finite hmantissa hexponent

/-! ### Packing -/

theorem unpack_components (s : Sign) (e : BitVec 11) (m : BitVec 52) (h : e ≠ 0#11 ∨ m ≠ 0#52) :
    Nonzero (unpack Format.binary64 (packComponents Format.binary64 s e m)) := by
  have hm := m.isLt
  have hnormal : (1#1 ++ m).toNat < 2 ^ 53 := (1#1 ++ m).isLt
  simp only [unpack, unpackExponent_packComponents, unpackMantissa_packComponents]
  by_cases hmax : e = -1#11
  · rw [if_pos hmax]
    by_cases hm0 : m = 0#52
    · rw [if_pos hm0]
      exact .infinity
    · rw [if_neg hm0]
      exact .notANumber
  · rw [if_neg hmax]
    by_cases he0 : e = 0#11
    · have hm0 : m ≠ 0#52 := h.resolve_left (absurd he0)
      rw [if_pos he0, dif_neg hm0]
      refine .finite (by omega) ?_
      change -1074 ≤ (e.toNat : Int) - (1023 + 52) + 1
      omega
    · rw [if_neg he0]
      have hpos : 0 < e.toNat := Nat.pos_of_ne_zero fun hzero => he0 (BitVec.eq_of_toNat_eq hzero)
      refine .finite hnormal ?_
      change -1074 ≤ (e.toNat : Int) - (1023 + 52)
      omega

theorem ofNat_ne_zero {w n : Nat} (hn : n % 2 ^ w ≠ 0) : BitVec.ofNat w n ≠ 0#w := by
  intro h
  have htoNat := congrArg BitVec.toNat h
  rw [BitVec.toNat_ofNat, BitVec.toNat_zero] at htoNat
  exact hn htoNat

theorem nonzero_unpack_pack {x : UnpackedFloat} (h : Nonzero x) :
    Nonzero (unpack Format.binary64 (pack Format.binary64 x)) := by
  cases h with
  | notANumber => exact unpack_components _ _ _ (Or.inl (by decide))
  | infinity => exact unpack_components _ _ _ (Or.inl (by decide))
  | @finite s m e hm hmantissa hexponent =>
    simp only [pack]
    split
    · exact unpack_components _ _ _ (Or.inl (by decide))
    · rename_i hover
      split
      · have hbiased : (e + 1023 + 52).toNat % 2 ^ 11 ≠ 0 := by
          change ¬ 2 ^ 11 ≤ (e + 1023 + 52).toNat + 1 at hover
          omega
        exact unpack_components _ _ _ (Or.inl (ofNat_ne_zero hbiased))
      · rename_i hlog
        have hsmall : m < 2 ^ 52 := by
          by_contra hlarge
          have hm52 : m.log2 = 52 := (Nat.log2_eq_iff hm.ne').mpr ⟨by omega, hmantissa⟩
          exact hlog (congrArg (· + 1) hm52)
        have hbits : m % 2 ^ 52 ≠ 0 := by omega
        exact unpack_components _ _ _ (Or.inr (ofNat_ne_zero hbits))

/-! ### Rounding -/

theorem mantissa_shiftRight (m : ExtendedMantissa) (k : Nat) :
    (m >>> k).mantissa = m.mantissa / 2 ^ k := by
  induction k with
  | zero => exact (Nat.div_one _).symm
  | succ k ih =>
    change (m >>> k).mantissa / 2 = _
    rw [ih, Nat.div_div_eq_div_mul, Nat.pow_succ]

theorem mantissa_le_roundedMantissa (m : ExtendedMantissa) : m.mantissa ≤ m.roundedMantissa := by
  obtain ⟨n, round, sticky⟩ := m
  cases round <;> cases sticky <;>
    simp [ExtendedMantissa.roundedMantissa, ExtendedMantissa.accuracy, Accuracy.roundToNearestEven]

/-- Shifting to the target exponent drops no more than the bits that do not fit. -/
theorem shiftToTargetExponent_bounds {m : Nat} {e : Int} (hm : 0 < m) (he : -1074 ≤ e) :
    let shifted := shiftToTargetExponent Format.binary64 m e .exact
    0 < shifted.1.mantissa ∧ shifted.1.mantissa < 2 ^ 53 ∧ -1074 ≤ shifted.2 := by
  intro shifted
  obtain ⟨k, hk, hmantissa, hexponent⟩ : ∃ k, k = m.log2 - 52 ∧ shifted.1.mantissa = m / 2 ^ k ∧
      shifted.2 = e + k := by
    have htarget : Format.binary64.targetExponent (totalExponent m e) =
        max (m.log2 + e - 52) (-1074) := by
      simp only [Format.targetExponent, totalExponent, Format.mantissaBits, Format.minExponent]
      omega
    refine ⟨(max ((m.log2 : Int) + e - 52) (-1074) - e).toNat, by omega, ?_, ?_⟩
    · rw [← htarget]
      exact mantissa_shiftRight _ _
    · rw [← htarget]
      rfl
  have hlower : 2 ^ m.log2 ≤ m := Nat.log2_self_le hm.ne'
  have hupper : m < 2 ^ (m.log2 + 1) := Nat.lt_log2_self
  have hpos : 2 ^ k ≤ m := le_trans (Nat.pow_le_pow_right (by omega) (by omega)) hlower
  have hfits : m < 2 ^ 53 * 2 ^ k := by
    rw [← Nat.pow_add]
    exact lt_of_lt_of_le hupper (Nat.pow_le_pow_right (by omega) (by omega))
  refine ⟨?_, ?_, by omega⟩
  · rw [hmantissa]
    exact Nat.div_pos hpos (Nat.two_pow_pos k)
  · rw [hmantissa]
    exact (Nat.div_lt_iff_lt_mul (Nat.two_pow_pos k)).mpr hfits

theorem nonzero_roundWithAccuracy (s : Sign) {m : Nat} {e : Int} (hm : 0 < m) (he : -1074 ≤ e) :
    Nonzero (roundWithAccuracy Format.binary64 s m e .exact) := by
  obtain ⟨hfirst, -, hexponent⟩ := shiftToTargetExponent_bounds hm he
  have hrounded := lt_of_lt_of_le hfirst (mantissa_le_roundedMantissa _)
  obtain ⟨hpos, hfits, hleast⟩ := shiftToTargetExponent_bounds hrounded hexponent
  simp only [roundWithAccuracy]
  rw [dif_neg hpos.ne']
  exact .finite hfits hleast

/-! ### Whole numbers -/

def ExponentAtLeast (least : Int) : UnpackedFloat → Prop
  | .finite _ _ e _ => least ≤ e
  | _ => False

theorem ExponentAtLeast.mono {a b : Int} {x : UnpackedFloat} (h : ExponentAtLeast b x)
    (hab : a ≤ b) : ExponentAtLeast a x := by
  cases x with
  | finite s m e hm => exact le_trans hab h
  | infinity s => exact h
  | notANumber => exact h
  | zero s => exact h

theorem unpackSign_packComponents (s : Sign) (e : BitVec 11) (m : BitVec 52) :
    Sign.ofBitVec (unpackSign (packComponents Format.binary64 s e m)) = s := by
  have hsign : unpackSign (packComponents Format.binary64 s e m) = s.toBitVec := by
    change (s.toBitVec ++ e ++ m).extractLsb' 63 1 = s.toBitVec
    rw [BitVec.extractLsb'_append_eq_of_le (by decide),
      BitVec.extractLsb'_append_eq_of_le (by decide)]
    cases s <;> rfl
  rw [hsign]
  cases s <;> rfl

theorem pack_of_log2 (s : Sign) {m : Nat} {e : Int} (hm : 0 < m) (hlog : m.log2 = 52)
    (hgreatest : e ≤ 971) : pack Format.binary64 (.finite s m e hm) =
      packComponents Format.binary64 s (BitVec.ofNat 11 (e + 1023 + 52).toNat)
        (BitVec.ofNat 52 m) := by
  have hbiased : ¬ 2 ^ 11 ≤ (e + 1023 + 52).toNat + 1 := by omega
  have hnormal : m.log2 + 1 = Format.binary64.mantissaBits := congrArg (· + 1) hlog
  exact (if_neg hbiased).trans (if_pos hnormal)

/-- A significand of full width and an exponent within the format are packed without loss. -/
theorem unpack_pack_of_log2 (s : Sign) {m : Nat} {e : Int} (hm : 0 < m) (hlog : m.log2 = 52)
    (hleast : -1074 ≤ e) (hgreatest : e ≤ 971) :
    (Float.Model.pack (.finite s m e hm)).unpack = .finite s m e hm := by
  have hfield : (BitVec.ofNat 11 (e + 1023 + 52).toNat).toNat = (e + 1023 + 52).toNat := by
    rw [BitVec.toNat_ofNat]
    exact Nat.mod_eq_of_lt (by omega)
  have hmax : BitVec.ofNat 11 (e + 1023 + 52).toNat ≠ -1#11 := by
    intro heq
    have htoNat : (e + 1023 + 52).toNat = 2047 := hfield ▸ congrArg BitVec.toNat heq
    omega
  have hmin : BitVec.ofNat 11 (e + 1023 + 52).toNat ≠ 0#11 := by
    intro heq
    have htoNat : (e + 1023 + 52).toNat = 0 := hfield ▸ congrArg BitVec.toNat heq
    omega
  have hexponent : ((e + 1023 + 52).toNat : Int) - (1023 + 52) = e := by omega
  have hmantissa : (1#1 ++ BitVec.ofNat 52 m).toNat = m := by
    obtain ⟨hlower, hupper⟩ := (Nat.log2_eq_iff hm.ne').mp hlog
    rw [BitVec.toNat_append, ← Nat.shiftLeft_add_eq_or_of_lt (BitVec.isLt _), BitVec.toNat_ofNat,
      BitVec.toNat_ofNat, Nat.shiftLeft_eq]
    omega
  change unpack Format.binary64 (pack Format.binary64 (.finite s m e hm)) = _
  rw [pack_of_log2 s hm hlog hgreatest]
  simp only [unpack, unpackExponent_packComponents, unpackMantissa_packComponents,
    unpackSign_packComponents, if_neg hmax, if_neg hmin, hfield, hmantissa]
  exact congrArg (UnpackedFloat.finite s m · hm) hexponent

theorem shiftToTargetExponent_of_log2 {m k : Nat} {e : Int} (hlog : m.log2 = 52 + k)
    (he : -1074 ≤ e + k) :
    shiftToTargetExponent Format.binary64 m e .exact =
      (ExtendedMantissa.ofMantissaAndAccuracy m .exact >>> k, e + k) := by
  have htarget : Format.binary64.targetExponent (totalExponent m e) = e + k := by
    simp only [Format.targetExponent, totalExponent, Format.mantissaBits, Format.minExponent]
    omega
  have hshift : (e + k - e).toNat = k := by omega
  simp only [shiftToTargetExponent, htarget, shiftToExponent, hshift]

theorem roundWithAccuracy_of_log2 (s : Sign) {m : Nat} {e : Int} (hm : 0 < m) (hlog : m.log2 = 52)
    (he : -1074 ≤ e) : roundWithAccuracy Format.binary64 s m e .exact = .finite s m e hm := by
  have hshift : shiftToTargetExponent Format.binary64 m e .exact = (⟨m, false, false⟩, e) :=
    (shiftToTargetExponent_of_log2 (k := 0) hlog (by omega)).trans
      (congrArg _ (add_zero e))
  have hrounded : (ExtendedMantissa.mk m false false).roundedMantissa = m := rfl
  simp only [roundWithAccuracy, hshift, hrounded]
  rw [dif_neg hm.ne']

theorem log2_mul_two_pow {m : Nat} (hm : m ≠ 0) (k : Nat) : (m * 2 ^ k).log2 = m.log2 + k := by
  induction k with
  | zero => rw [pow_zero, Nat.mul_one, Nat.add_zero]
  | succ k ih =>
    have hne : m * 2 ^ k ≠ 0 := Nat.mul_ne_zero hm (Nat.two_pow_pos k).ne'
    rw [Nat.pow_succ, ← Nat.mul_assoc, Nat.mul_comm _ 2, Nat.log2_two_mul hne, ih, Nat.add_assoc]

/-- A natural number below `2 ^ 53` is scaled up to the width of the significand. -/
theorem exists_round {n : Nat} (hn : 0 < n) (hfits : n < 2 ^ 53) :
    ∃ hm, n.log2 ≤ 52 ∧ (n * 2 ^ (52 - n.log2)).log2 = 52 ∧
      UnpackedFloat.round Format.binary64 .positive n 0 =
        .finite .positive (n * 2 ^ (52 - n.log2)) (n.log2 - 52) hm := by
  have hlog : n.log2 ≤ 52 := by
    have hlt := (Nat.log2_lt hn.ne').mpr hfits
    omega
  have htarget : Format.binary64.targetExponent (totalExponent n 0) = n.log2 - 52 := by
    simp only [Format.targetExponent, totalExponent, Format.mantissaBits, Format.minExponent]
    omega
  have hshift : (0 - ((n.log2 : Int) - 52)).toNat = 52 - n.log2 := by omega
  have hexponent : (0 : Int) - ((52 - n.log2 : Nat) : Int) = n.log2 - 52 := by omega
  have hscaled : (n * 2 ^ (52 - n.log2)).log2 = 52 := by
    rw [log2_mul_two_pow hn.ne']
    omega
  have hpos : 0 < n * 2 ^ (52 - n.log2) := by positivity
  refine ⟨hpos, hlog, hscaled, ?_⟩
  simp only [UnpackedFloat.round, htarget, decreaseExponent, hshift, hexponent, Nat.shiftLeft_eq]
  exact roundWithAccuracy_of_log2 .positive hpos hscaled (by omega)

theorem unpack_pack_round {n : Nat} (hn : 0 < n) (hfits : n < 2 ^ 53) :
    (Float.Model.pack (UnpackedFloat.round Format.binary64 .positive n 0)).unpack =
      UnpackedFloat.round Format.binary64 .positive n 0 := by
  obtain ⟨hm, hlog, hscaled, hround⟩ := exists_round hn hfits
  rw [hround]
  exact unpack_pack_of_log2 .positive hm hscaled (by omega) (by omega)

theorem exponentAtLeast_round {n : Nat} (hn : 0 < n) (hfits : n < 2 ^ 53) :
    ExponentAtLeast (-52) (UnpackedFloat.round Format.binary64 .positive n 0) := by
  obtain ⟨hm, -, -, hround⟩ := exists_round hn hfits
  rw [hround]
  change -52 ≤ (n.log2 : Int) - 52
  omega

theorem ofNat_eq_round {n : Nat} (hn : 0 < n) :
    UnpackedFloat.ofNat Format.binary64 n = UnpackedFloat.round Format.binary64 .positive n 0 := by
  have hpos : compare (n : Int) 0 = .gt := Int.compare_eq_gt.mpr (by omega)
  simp only [UnpackedFloat.ofNat, UnpackedFloat.ofInt, UnpackedFloat.normalize, hpos,
    Int.toNat_natCast]

theorem nonzero_mul_one {x : UnpackedFloat} (hx : ExponentAtLeast (-1022) x) :
    Nonzero (mul Format.binary64 x (.finite .positive (2 ^ 52) (-52) (by decide))) := by
  cases x with
  | finite s m e hm =>
    have hpos : 0 < m * 2 ^ 52 := by positivity
    have hleast : -1022 ≤ e := hx
    exact nonzero_roundWithAccuracy _ hpos (by omega)
  | infinity => exact absurd hx id
  | notANumber => exact absurd hx id
  | zero => exact absurd hx id

def IsNonzero (x : Float) : Prop :=
  Nonzero x.toModel.unpack

/-- A number that fits the significand is converted as it is, and multiplied by one. -/
theorem toModel_ofNat_of_lt {n : Nat} (hn : 0 < n) (hfits : n < 2 ^ 53) :
    (Float.ofNat n).toModel = Float.Model.pack (mul Format.binary64
      (UnpackedFloat.round Format.binary64 .positive n 0)
      (.finite .positive (2 ^ 52) (-52) (by decide))) := by
  have hfast : n < 2 ^ 53 ∧ 0 ≤ 22 := ⟨hfits, by decide⟩
  have hproduct : Float.ofNat n = n.toUInt64.toFloat * Float.ofBits 0x3FF0000000000000 := by
    change Float.ofScientific n false 0 = _
    rw [Float.ofScientific, dif_pos hfast]
    rfl
  have hone : (Float.ofBits 0x3FF0000000000000).toModel.unpack =
      .finite .positive (2 ^ 52) (-52) (by decide) := by
    rfl
  have hconvert : n.toUInt64.toFloat.toModel =
      Float.Model.pack (UnpackedFloat.round Format.binary64 .positive n 0) := by
    have hnat : n.toUInt64.toNat = n := Nat.mod_eq_of_lt (by omega)
    rw [← ofNat_eq_round hn]
    conv_rhs => rw [← hnat]
    rfl
  rw [hproduct, ← hone, ← unpack_pack_round hn hfits, ← hconvert]
  rfl

/-- A larger number is shifted by the width of the significand and rounded. -/
theorem toModel_ofNat_of_le {n : Nat} (hn : 2 ^ 53 ≤ n) :
    (Float.ofNat n).toModel = Float.Model.pack
      (roundWithAccuracy Format.binary64 .positive (n * 2 ^ 53) (-53) .exact) := by
  have hslow : ¬ (n < 2 ^ 53 ∧ 0 ≤ 22) := by omega
  have hne : n ≠ 0 := by omega
  have hmodel : Float.ofNat n = Float.ofModel (Float.Model.ofScientific n 0) := by
    change Float.ofScientific n false 0 = _
    rw [Float.ofScientific, dif_neg hslow]
    rfl
  have hbelow : ¬ (0 : Int) > 2 ^ Format.binary64.exponentBits := by decide
  have habove : ¬ (0 : Int) < -((2 ^ Format.binary64.exponentBits : Int) + n.log2) := by
    change ¬ (0 : Int) < -(2048 + n.log2)
    omega
  have hshift : n <<< Format.binary64.mantissaBits * 10 ^ (0 : Int).toNat = n * 2 ^ 53 := by
    rw [Nat.shiftLeft_eq]
    exact Nat.mul_one _
  rw [hmodel]
  change Float.Model.pack (ofScientific Format.binary64 n 0) = _
  rw [ofScientific, dif_neg hne, if_neg hbelow, if_neg habove, if_pos le_rfl, mul]
  simp only [hshift]
  rfl

theorem isNonzero_ofNat_of_lt {n : Nat} (hn : 0 < n) (hfits : n < 2 ^ 53) :
    IsNonzero (Float.ofNat n) := by
  rw [IsNonzero, toModel_ofNat_of_lt hn hfits]
  exact nonzero_unpack_pack (nonzero_mul_one ((exponentAtLeast_round hn hfits).mono (by omega)))

theorem isNonzero_ofNat_of_le {n : Nat} (hn : 2 ^ 53 ≤ n) : IsNonzero (Float.ofNat n) := by
  have hpos : 0 < n * 2 ^ 53 := by omega
  rw [IsNonzero, toModel_ofNat_of_le hn]
  exact nonzero_unpack_pack (nonzero_roundWithAccuracy _ hpos (by omega))

theorem isNonzero_ofNat {n : Nat} (hn : 0 < n) : IsNonzero (Float.ofNat n) := by
  rcases Nat.lt_or_ge n (2 ^ 53) with hfits | hlarge
  · exact isNonzero_ofNat_of_lt hn hfits
  · exact isNonzero_ofNat_of_le hlarge

theorem IsNonzero.neg {x : Float} (h : IsNonzero x) : IsNonzero (-x) :=
  nonzero_unpack_pack (Nonzero.neg h)

theorem IsNonzero.beq_zero {x : Float} (h : IsNonzero x) : (x == 0.0) = false := by
  have hzero : (0.0 : Float).toModel.unpack = .zero .positive := by rfl
  change x.toModel.unpack.beq (0.0 : Float).toModel.unpack = false
  rw [hzero]
  exact Nonzero.beq_zero h .positive

theorem isNonzero_ofInt {n : Int64} (hn : n.toInt ≠ 0) : IsNonzero (ofInt n) := by
  rw [ofInt]
  cases hint : n.toInt with
  | ofNat k =>
    rw [hint] at hn
    exact isNonzero_ofNat (Nat.pos_of_ne_zero fun hzero => hn (congrArg Int.ofNat hzero))
  | negSucc k => exact (isNonzero_ofNat k.succ_pos).neg

end Placeholder.Number
