import Mathlib
import Placeholder.Arithmetic
import Placeholder.Proofs.NonzeroFloat

/-!
# Exact values of arithmetic expressions

An expression as a tree, its value as a rational number, and what the arithmetic of integers and
floats makes of it. That arithmetic gives an integer exactly where every part of the tree has a
value that is an integer of 64 bits; the integer is then the value. One part without such a value
is enough to leave the integers for good.
-/

namespace Placeholder.Arithmetic

open Number (Scalar)

inductive Operator where
  | add
  | subtract
  | multiply
  | divide
  deriving DecidableEq, Repr

inductive Expr where
  | literal (n : Nat)
  | plus (e : Expr)
  | minus (e : Expr)
  | binary (op : Operator) (a b : Expr)
  deriving DecidableEq, Repr

def Operator.value? : Operator → ℚ → ℚ → Option ℚ
  | add, x, y => some (x + y)
  | subtract, x, y => some (x - y)
  | multiply, x, y => some (x * y)
  | divide, x, y => if y = 0 then none else some (x / y)

def Operator.compute : Operator → Scalar → Scalar → Except MathFault Scalar
  | add, x, y => .ok (Arithmetic.add x y)
  | subtract, x, y => .ok (Arithmetic.subtract x y)
  | multiply, x, y => .ok (Arithmetic.multiply x y)
  | divide, x, y => if isZero y then .error .divisionByZero else .ok (Arithmetic.divide x y)

namespace Expr

/-- The exact value; a quotient by zero has none. -/
def value : Expr → Option ℚ
  | literal n => some n
  | plus e => e.value
  | minus e => e.value.map fun x => -x
  | binary op a b => a.value.bind fun x => b.value.bind fun y => op.value? x y

/-- The expression itself and everything it is built from. -/
def subexpressions : Expr → List Expr
  | literal n => [literal n]
  | plus e => plus e :: e.subexpressions
  | minus e => minus e :: e.subexpressions
  | binary op a b => binary op a b :: (a.subexpressions ++ b.subexpressions)

def HasInteger (e : Expr) : Prop :=
  ∃ n : Int64, e.value = some (n.toInt : ℚ)

/-- Every part of the expression has a value that is an integer of 64 bits. -/
def StaysInteger (e : Expr) : Prop :=
  ∀ s ∈ e.subexpressions, s.HasInteger

/-- What the arithmetic of integers and floats makes of the expression. -/
def compute : Expr → Except MathFault Scalar
  | literal n => .ok (exactOr n (Number.nearestFloat false n 0))
  | plus e => e.compute
  | minus e => e.compute.map negate
  | binary op a b => do
    let x ← a.compute
    let y ← b.compute
    op.compute x y

end Expr

/-! ### One operation -/

theorem exactOr_eq_int_iff {z : Int} {x : Float} {n : Int64} :
    exactOr z x = .int n ↔ n.toInt = z := by
  rw [← exactInt64_eq_some_iff, exactOr]
  cases exactInt64 z <;> simp

theorem negate_eq_int_iff {x : Scalar} {n : Int64} :
    negate x = .int n ↔ ∃ i, x = .int i ∧ n.toInt = -i.toInt := by
  cases x with
  | int i => simp [negate, exactOr_eq_int_iff]
  | float x => simp [negate]

theorem isZero_int {n : Int64} (hn : n.toInt ≠ 0) : isZero (.int n) = false :=
  (Number.isNonzero_ofInt hn).beq_zero

section Operation

variable {x y : Scalar} {n : Int64}

theorem add_eq_int_iff :
    add x y = .int n ↔ ∃ i j, x = .int i ∧ y = .int j ∧ n.toInt = i.toInt + j.toInt := by
  cases x <;> cases y <;> simp [add, exactOr_eq_int_iff]

theorem subtract_eq_int_iff :
    subtract x y = .int n ↔ ∃ i j, x = .int i ∧ y = .int j ∧ n.toInt = i.toInt - j.toInt := by
  cases x <;> cases y <;> simp [subtract, exactOr_eq_int_iff]

theorem multiply_eq_int_iff :
    multiply x y = .int n ↔ ∃ i j, x = .int i ∧ y = .int j ∧ n.toInt = i.toInt * j.toInt := by
  cases x <;> cases y <;> simp [multiply, exactOr_eq_int_iff]

theorem divide_eq_int_iff :
    divide x y = .int n ↔ ∃ i j, x = .int i ∧ y = .int j ∧ j.toInt ≠ 0 ∧
      i.toInt = n.toInt * j.toInt := by
  cases x with
  | float x => cases y <;> simp [divide]
  | int i =>
    cases y with
    | float y => simp [divide]
    | int j =>
      have hiff : divide (.int i) (.int j) = .int n ↔
          j.toInt ≠ 0 ∧ i.toInt = n.toInt * j.toInt := by
        simp only [divide]
        split
        · rename_i hexact
          obtain ⟨hj, hmod⟩ := hexact
          rw [exactOr_eq_int_iff, eq_comm,
            Int.ediv_eq_iff_eq_mul_left hj (Int.dvd_of_emod_eq_zero hmod)]
          exact ⟨fun h => ⟨hj, h⟩, And.right⟩
        · rename_i hexact
          refine ⟨fun h => (nomatch h), fun ⟨hj, hi⟩ => absurd ⟨hj, ?_⟩ hexact⟩
          rw [hi]
          exact Int.mul_emod_left _ _
      simpa using hiff

/-- An operation gives an integer where both numbers are integers and the exact result is one. -/
theorem Operator.compute_eq_int_iff (op : Operator) :
    op.compute x y = .ok (.int n) ↔
      ∃ i j, x = .int i ∧ y = .int j ∧ op.value? i.toInt j.toInt = some (n.toInt : ℚ) := by
  cases op with
  | add =>
    simp only [compute, value?, Except.ok.injEq, add_eq_int_iff, Option.some.injEq]
    norm_cast
    simp only [eq_comm]
  | subtract =>
    simp only [compute, value?, Except.ok.injEq, subtract_eq_int_iff, Option.some.injEq]
    norm_cast
    simp only [eq_comm]
  | multiply =>
    simp only [compute, value?, Except.ok.injEq, multiply_eq_int_iff, Option.some.injEq]
    norm_cast
    simp only [eq_comm]
  | divide =>
    constructor
    · intro h
      simp only [compute] at h
      split at h
      · cases h
      · obtain ⟨i, j, hx, hy, hj, hi⟩ := divide_eq_int_iff.mp (Except.ok.inj h)
        have hj' : (j.toInt : ℚ) ≠ 0 := by exact_mod_cast hj
        refine ⟨i, j, hx, hy, ?_⟩
        rw [value?, if_neg hj', hi, Int.cast_mul, mul_div_cancel_right₀ _ hj']
    · rintro ⟨i, j, rfl, rfl, h⟩
      simp only [value?] at h
      split at h
      · cases h
      · rename_i hj'
        have hj : j.toInt ≠ 0 := by exact_mod_cast hj'
        have hi : (i.toInt : ℚ) = n.toInt * j.toInt := (div_eq_iff hj').mp (Option.some.inj h)
        rw [compute, isZero_int hj, if_neg (by decide)]
        exact congrArg _ (divide_eq_int_iff.mpr ⟨i, j, rfl, rfl, hj, by exact_mod_cast hi⟩)

end Operation

/-! ### Whole expressions -/

namespace Expr

theorem self_mem_subexpressions (e : Expr) : e ∈ e.subexpressions := by
  cases e <;> exact List.mem_cons_self

theorem StaysInteger.hasInteger {e : Expr} (h : e.StaysInteger) : e.HasInteger :=
  h e e.self_mem_subexpressions

theorem staysInteger_literal {n : Nat} :
    (literal n).StaysInteger ↔ (literal n).HasInteger := by
  simp [StaysInteger, subexpressions]

theorem staysInteger_plus {e : Expr} :
    (plus e).StaysInteger ↔ (plus e).HasInteger ∧ e.StaysInteger := by
  simp [StaysInteger, subexpressions]

theorem staysInteger_minus {e : Expr} :
    (minus e).StaysInteger ↔ (minus e).HasInteger ∧ e.StaysInteger := by
  simp [StaysInteger, subexpressions]

theorem staysInteger_binary {op : Operator} {a b : Expr} :
    (binary op a b).StaysInteger ↔
      (binary op a b).HasInteger ∧ a.StaysInteger ∧ b.StaysInteger := by
  simp [StaysInteger, subexpressions, or_imp, forall_and]

theorem compute_minus_eq_int_iff {e : Expr} {n : Int64} :
    (minus e).compute = .ok (.int n) ↔ ∃ i, e.compute = .ok (.int i) ∧ n.toInt = -i.toInt := by
  rw [compute]
  cases e.compute with
  | error fault => simp [Except.map]
  | ok x => simpa [Except.map] using negate_eq_int_iff

theorem compute_binary_eq_int_iff {op : Operator} {a b : Expr} {n : Int64} :
    (binary op a b).compute = .ok (.int n) ↔
      ∃ i j, a.compute = .ok (.int i) ∧ b.compute = .ok (.int j) ∧
        op.value? i.toInt j.toInt = some (n.toInt : ℚ) := by
  rw [compute]
  cases a.compute with
  | error fault => simp [bind, Except.bind]
  | ok x =>
    cases b.compute with
    | error fault => simp [bind, Except.bind]
    | ok y => simpa [bind, Except.bind] using op.compute_eq_int_iff

/-- The arithmetic gives an integer exactly if it never has to leave the integers. -/
theorem compute_eq_int_iff (e : Expr) (n : Int64) :
    e.compute = .ok (.int n) ↔ e.StaysInteger ∧ e.value = some (n.toInt : ℚ) := by
  induction e generalizing n with
  | literal k =>
    rw [staysInteger_literal, HasInteger, compute, value, Except.ok.injEq, exactOr_eq_int_iff]
    constructor
    · intro h
      have hvalue : some (k : ℚ) = some (n.toInt : ℚ) := by rw [h, Int.cast_natCast]
      exact ⟨⟨n, hvalue⟩, hvalue⟩
    · rintro ⟨-, hvalue⟩
      exact_mod_cast (Option.some.inj hvalue).symm
  | plus e ih =>
    rw [staysInteger_plus, HasInteger, compute, value, ih]
    exact ⟨fun ⟨hstays, hvalue⟩ => ⟨⟨⟨n, hvalue⟩, hstays⟩, hvalue⟩,
      fun ⟨⟨_, hstays⟩, hvalue⟩ => ⟨hstays, hvalue⟩⟩
  | minus e ih =>
    rw [compute_minus_eq_int_iff, staysInteger_minus, HasInteger]
    simp only [value]
    constructor
    · rintro ⟨i, he, hn⟩
      obtain ⟨hstays, hi⟩ := (ih i).mp he
      have hvalue : (e.value.map fun x => -x) = some (n.toInt : ℚ) := by
        rw [hi, hn, Int.cast_neg]
        rfl
      exact ⟨⟨⟨n, hvalue⟩, hstays⟩, hvalue⟩
    · rintro ⟨⟨-, hstays⟩, hvalue⟩
      obtain ⟨i, hi⟩ := hstays.hasInteger
      rw [hi] at hvalue
      have hn : -(i.toInt : ℚ) = n.toInt := Option.some.inj hvalue
      exact ⟨i, (ih i).mpr ⟨hstays, hi⟩, by exact_mod_cast hn.symm⟩
  | binary op a b iha ihb =>
    rw [compute_binary_eq_int_iff, staysInteger_binary, HasInteger]
    simp only [value]
    constructor
    · rintro ⟨i, j, ha, hb, hop⟩
      obtain ⟨hastays, hai⟩ := (iha i).mp ha
      obtain ⟨hbstays, hbj⟩ := (ihb j).mp hb
      have hvalue : (a.value.bind fun x => b.value.bind fun y => op.value? x y) =
          some (n.toInt : ℚ) := by
        rw [hai, hbj]
        exact hop
      exact ⟨⟨⟨n, hvalue⟩, hastays, hbstays⟩, hvalue⟩
    · rintro ⟨⟨-, hastays, hbstays⟩, hvalue⟩
      obtain ⟨i, hai⟩ := hastays.hasInteger
      obtain ⟨j, hbj⟩ := hbstays.hasInteger
      rw [hai, hbj] at hvalue
      exact ⟨i, j, (iha i).mpr ⟨hastays, hai⟩, (ihb j).mpr ⟨hbstays, hbj⟩, hvalue⟩

end Expr

end Placeholder.Arithmetic
