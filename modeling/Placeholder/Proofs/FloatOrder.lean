import Mathlib
import Placeholder.Number.Numeral
import Placeholder.Proofs.NonzeroFloat

/-!
# The order of numbers

Numbers compare as their unpacked floats do, and what does not compare counts as equal. A whole
number as a float keeps its sign, so every zero stands in this order where the integer zero stands.
-/

namespace Placeholder.Number

open Float.Model (Format UnpackedFloat)
open Float.Model.UnpackedFloat

/-! ### Comparing floats -/

theorem lt_iff_compare {x y : Float} :
    x < y ↔ x.toModel.unpack.compare y.toModel.unpack = some .lt := by
  change decide (x.toModel < y.toModel) = true ↔ _
  rw [decide_eq_true_iff]
  change (x.toModel.unpack.compare y.toModel.unpack == some .lt) = true ↔ _
  exact beq_iff_eq

theorem beq_iff_compare {x y : Float} :
    (x == y) = true ↔ x.toModel.unpack.compare y.toModel.unpack = some .eq := by
  change (x.toModel.unpack.compare y.toModel.unpack == some .eq) = true ↔ _
  exact beq_iff_eq

theorem compare_swap (x y : UnpackedFloat) : y.compare x = (x.compare y).map Ordering.swap := by
  cases x with
  | notANumber => cases y <;> rfl
  | infinity s =>
    cases y with
    | infinity t => cases s <;> cases t <;> rfl
    | _ => cases s <;> rfl
  | zero s =>
    cases y with
    | infinity t => cases t <;> rfl
    | finite t m e hm => cases t <;> rfl
    | _ => rfl
  | finite s m e hm =>
    cases y with
    | finite t n f hn =>
      have hswap : (compare e f).then (compare m n) =
          ((compare f e).then (compare n m)).swap := by
        rw [Ordering.swap_then, ← Std.OrientedOrd.eq_swap, ← Std.OrientedOrd.eq_swap]
      cases s <;> cases t <;> simp [UnpackedFloat.compare, hswap]
    | infinity t => cases t <;> cases s <;> rfl
    | notANumber => cases s <;> rfl
    | zero t => cases s <;> rfl

theorem compare_notANumber (x : UnpackedFloat) : x.compare .notANumber = none := by
  cases x with
  | infinity s => cases s <;> rfl
  | finite s m e hm => cases s <;> rfl
  | _ => rfl

theorem compare_self_getD (x : UnpackedFloat) : (x.compare x).getD .eq = .eq := by
  cases x with
  | infinity s => cases s <;> rfl
  | finite s m e hm => cases s <;> simp [UnpackedFloat.compare]
  | _ => rfl

theorem ordering_eq_compare (x y : Float) :
    (if x < y then Ordering.lt else if y < x then .gt else .eq) =
      (x.toModel.unpack.compare y.toModel.unpack).getD .eq := by
  simp only [lt_iff_compare, compare_swap x.toModel.unpack y.toModel.unpack]
  cases x.toModel.unpack.compare y.toModel.unpack with
  | none => rfl
  | some o => cases o <;> rfl

/-! ### The sign of a float -/

/-- The sign of a float; what is not a number has none. -/
def sign? : UnpackedFloat → Option Sign
  | .infinity s => some s
  | .notANumber => none
  | .zero s => some s
  | .finite s _ _ _ => some s

/-- A float that is not zero and has this sign. -/
def IsSigned (s : Sign) (x : Float) : Prop :=
  IsNonzero x ∧ sign? x.toModel.unpack = some s

theorem sign?_unpack_components (s : Sign) {e : BitVec 11} {m : BitVec 52}
    (h : e ≠ -1#11 ∨ m = 0#52) :
    sign? (unpack Format.binary64 (packComponents Format.binary64 s e m)) = some s := by
  simp only [unpack, unpackExponent_packComponents, unpackMantissa_packComponents,
    unpackSign_packComponents]
  split_ifs with hmax hm hmin hm'
  · rfl
  · exact absurd hmax (h.resolve_right hm)
  · rfl
  · rfl
  · rfl

theorem sign?_unpack_pack {x : UnpackedFloat} {s : Sign} (h : sign? x = some s) :
    sign? (unpack Format.binary64 (pack Format.binary64 x)) = some s := by
  cases x with
  | notANumber => cases h
  | infinity t =>
    cases h
    exact sign?_unpack_components s (Or.inr rfl)
  | zero t =>
    cases h
    exact sign?_unpack_components s (Or.inr rfl)
  | finite t m e hm =>
    cases h
    simp only [pack]
    split
    · exact sign?_unpack_components s (Or.inr rfl)
    · rename_i hover
      split
      · refine sign?_unpack_components s (Or.inl fun heq => ?_)
        have htoNat : (e + 1023 + 52).toNat % 2 ^ 11 = 2047 := by
          rw [← BitVec.toNat_ofNat]
          exact congrArg BitVec.toNat heq
        change ¬ 2 ^ 11 ≤ (e + 1023 + 52).toNat + 1 at hover
        omega
      · exact sign?_unpack_components s (Or.inl (by decide))

theorem sign?_roundWithAccuracy (s : Sign) (m : Nat) (e : Int) (accuracy : Accuracy) :
    sign? (roundWithAccuracy Format.binary64 s m e accuracy) = some s := by
  simp only [roundWithAccuracy]
  split <;> rfl

theorem isSigned_ofNat {n : Nat} (hn : 0 < n) : IsSigned .positive (Float.ofNat n) := by
  refine ⟨isNonzero_ofNat hn, ?_⟩
  rcases Nat.lt_or_ge n (2 ^ 53) with hfits | hlarge
  · obtain ⟨hm, -, -, hround⟩ := exists_round hn hfits
    rw [toModel_ofNat_of_lt hn hfits, hround]
    exact sign?_unpack_pack (sign?_roundWithAccuracy _ _ _ _)
  · rw [toModel_ofNat_of_le hlarge]
    exact sign?_unpack_pack (sign?_roundWithAccuracy _ _ _ _)

theorem sign?_neg (x : UnpackedFloat) : sign? x.neg = (sign? x).map (-·) := by
  cases x <;> rfl

theorem IsSigned.neg {x : Float} {s : Sign} (h : IsSigned s x) : IsSigned (-s) (-x) := by
  refine ⟨h.1.neg, sign?_unpack_pack (x := x.toModel.unpack.neg) ?_⟩
  rw [sign?_neg, h.2]
  rfl

theorem isSigned_ofInt_of_pos {n : Int64} (hn : 0 < n.toInt) : IsSigned .positive (ofInt n) := by
  obtain ⟨k, hk⟩ := Int.eq_ofNat_of_zero_le hn.le
  rw [ofInt, hk]
  exact isSigned_ofNat (by omega)

theorem isSigned_ofInt_of_neg {n : Int64} (hn : n.toInt < 0) : IsSigned .negative (ofInt n) := by
  obtain ⟨k, hk⟩ := Int.eq_negSucc_of_lt_zero hn
  rw [ofInt, hk]
  exact (isSigned_ofNat k.succ_pos).neg

/-! ### Zeros -/

theorem compare_zero_eq (x : UnpackedFloat) (s t : Sign) :
    x.compare (.zero s) = x.compare (.zero t) := by
  cases x with
  | infinity u => cases u <;> rfl
  | finite u m e hm => cases u <;> rfl
  | _ => rfl

theorem compare_zero_of_nonzero {x : UnpackedFloat} (h : Nonzero x) {s : Sign}
    (hsign : sign? x = some s) (t : Sign) :
    x.compare (.zero t) = some (match s with | .positive => .gt | .negative => .lt) := by
  cases h with
  | notANumber => cases hsign
  | infinity =>
    cases hsign
    cases s <;> rfl
  | finite =>
    cases hsign
    cases s <;> rfl

theorem eq_zero_or_notANumber {x : UnpackedFloat} {s : Sign}
    (h : (UnpackedFloat.compare (.zero s) x).getD .eq = .eq) :
    (∃ t, x = .zero t) ∨ x = .notANumber := by
  cases x with
  | zero t => exact Or.inl ⟨t, rfl⟩
  | notANumber => exact Or.inr rfl
  | infinity t => cases t <;> cases h
  | finite t m e hm => cases t <;> cases h

theorem beq_zero_iff {x : Float} : (x == 0.0) = true ↔ ∃ s, x.toModel.unpack = .zero s := by
  have hzero : (0.0 : Float).toModel.unpack = .zero .positive := by rfl
  rw [beq_iff_compare, hzero, compare_swap, Option.map_eq_some_iff]
  constructor
  · rintro ⟨o, ho, hswap⟩
    obtain rfl : o = .eq := by cases o <;> first | rfl | cases hswap
    rcases eq_zero_or_notANumber (s := .positive) (by rw [ho]; rfl) with hx | hx
    · exact hx
    · rw [hx] at ho
      cases ho
  · rintro ⟨s, hs⟩
    rw [hs]
    exact ⟨.eq, rfl, rfl⟩

namespace Scalar

/-! ### Comparing numbers -/

theorem compare_self (a : Scalar) : a.compare a = .eq := by
  cases a with
  | int n => exact compare_eq_iff_eq.mpr rfl
  | float x => exact (ordering_eq_compare x x).trans (compare_self_getD x.toModel.unpack)

theorem compare_eq_comm {a b : Scalar} : a.compare b = .eq ↔ b.compare a = .eq := by
  have hfloats : ∀ x y : Float,
      (if x < y then Ordering.lt else if y < x then .gt else .eq) = .eq ↔
        (if y < x then Ordering.lt else if x < y then .gt else .eq) = .eq := by
    intro x y
    rw [ordering_eq_compare, ordering_eq_compare, compare_swap y.toModel.unpack]
    cases y.toModel.unpack.compare x.toModel.unpack with
    | none => rfl
    | some o => cases o <;> decide
  cases a <;> cases b
  case int.int m n => exact compare_eq_iff_eq.trans (eq_comm.trans compare_eq_iff_eq.symm)
  all_goals exact hfloats _ _

theorem compare_float (a : Scalar) (z : Float) :
    a.compare (.float z) = (a.toFloat.toModel.unpack.compare z.toModel.unpack).getD .eq := by
  cases a <;> exact ordering_eq_compare _ _

def IsZero : Scalar → Prop
  | int n => n = 0
  | float x => (x == 0.0) = true

instance : DecidablePred IsZero
  | int n => inferInstanceAs (Decidable (n = 0))
  | float x => inferInstanceAs (Decidable ((x == 0.0) = true))

theorem compare_ofInt_zero (n : Int64) (s : Sign) :
    (((ofInt n).toModel.unpack).compare (.zero s)).getD .eq = Ord.compare n.toInt 0 := by
  rcases lt_trichotomy n.toInt 0 with hneg | hzero | hpos
  · obtain ⟨hnonzero, hsign⟩ := isSigned_ofInt_of_neg hneg
    rw [compare_zero_of_nonzero hnonzero hsign, Int.compare_eq_lt.mpr hneg]
    rfl
  · obtain rfl : n = 0 := Int64.toInt_inj.mp hzero
    rfl
  · obtain ⟨hnonzero, hsign⟩ := isSigned_ofInt_of_pos hpos
    rw [compare_zero_of_nonzero hnonzero hsign, Int.compare_eq_gt.mpr hpos]
    rfl

/-- Every number compares with any zero as with the integer zero. -/
theorem compare_of_isZero {z : Scalar} (hz : z.IsZero) (a : Scalar) :
    a.compare z = a.compare (.int 0) := by
  cases z with
  | int n =>
    rw [show n = 0 from hz]
  | float z =>
    obtain ⟨s, hs⟩ := beq_zero_iff.mp hz
    rw [compare_float, hs]
    cases a with
    | int n => exact compare_ofInt_zero n s
    | float x =>
      rw [compare_zero_eq _ s .positive]
      exact (ordering_eq_compare x (ofInt 0)).symm

/-- What is equal to the integer zero without being a zero is equal to every number. -/
theorem compare_eq_of_not_isZero {z : Scalar} (hz : ¬ z.IsZero)
    (h : (int 0).compare z = .eq) (a : Scalar) : a.compare z = .eq := by
  cases z with
  | int n => exact absurd (Int64.toInt_inj.mp (compare_eq_iff_eq.mp h)).symm hz
  | float z =>
    rw [compare_float] at h
    rcases eq_zero_or_notANumber (s := .positive) h with hzero | hnan
    · exact absurd (beq_zero_iff.mpr hzero) hz
    · rw [compare_float, hnan, compare_notANumber]
      rfl

end Scalar

end Placeholder.Number
