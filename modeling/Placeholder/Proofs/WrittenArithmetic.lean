import Mathlib
import Placeholder.Proofs.ExactArithmetic
import Placeholder.Proofs.Trimming
import Placeholder.Proofs.WrittenDeclaration

/-!
# Arithmetic expressions as they are written

An expression is written with the parentheses that it needs, with more of them anywhere, and with
blanks in every gap. Evaluating the text gives what the arithmetic makes of the tree, so the value
is an integer exactly if all parts of the tree have integer values of 64 bits.
-/

namespace Placeholder.Arithmetic

open Clause (Stops stops_nil stops_cons takeWhile_append_of_stops)
open Number (Scalar)
open Text (not_blank_of_isDigit)

/-! ### Written expressions -/

def Operator.symbol : Operator → Char
  | add => '+'
  | subtract => '-'
  | multiply => '*'
  | divide => '/'

/-- The places of an expression, from the tightest to the loosest. -/
inductive Level where
  | factor
  | term
  | sum
  deriving DecidableEq, Repr

/-- The level of an operator, which is that of its left operand as well. -/
def Operator.level : Operator → Level
  | add | subtract => .sum
  | multiply | divide => .term

/-- The level of the right operand. -/
def Operator.operandLevel : Operator → Level
  | add | subtract => .term
  | multiply | divide => .factor

/-- Whether an operation stands at a level without parentheses. -/
def Level.Admits : Level → Operator → Prop
  | factor, _ => False
  | term, op => op.level = .term
  | sum, _ => True

def Gap (cs : List Char) : Prop :=
  ∀ c ∈ cs, Text.isAsciiBlank c = true

instance (cs : List Char) : Decidable (Gap cs) :=
  decidable_of_iff (cs.all Text.isAsciiBlank = true) List.all_eq_true

/-- The texts of an expression at a level, with at most `depth` parentheses open at a time. -/
inductive Written : Level → Nat → Expr → List Char → Prop where
  | literal {level : Level} {depth : Nat} {digits : List Char} : digits ≠ [] →
      (∀ c ∈ digits, c.isDigit = true) →
      Written level depth (.literal (Text.digitsValue digits)) digits
  | parenthesized {level : Level} {depth : Nat} {e : Expr} {before text after : List Char} :
      Gap before → Written .sum depth e text → Gap after →
      Written level (depth + 1) e ('(' :: (before ++ text ++ after ++ [')']))
  | plus {level : Level} {depth : Nat} {e : Expr} {gap text : List Char} : Gap gap →
      Written .factor depth e text → Written level depth (.plus e) ('+' :: (gap ++ text))
  | minus {level : Level} {depth : Nat} {e : Expr} {gap text : List Char} : Gap gap →
      Written .factor depth e text → Written level depth (.minus e) ('-' :: (gap ++ text))
  | binary {level : Level} {depth : Nat} {op : Operator} {a b : Expr}
      {left before after right : List Char} : level.Admits op → Written op.level depth a left →
      Gap before → Gap after → Written op.operandLevel depth b right →
      Written level depth (.binary op a b) (left ++ before ++ op.symbol :: (after ++ right))

/-! ### Characters of written expressions -/

theorem Gap.padding {gap : List Char} (h : Gap gap) : Text.Padding gap := by
  intro c hc
  have hblank := h c hc
  simp only [Text.isAsciiBlank, Bool.or_eq_true, beq_iff_eq] at hblank
  rcases hblank with (((rfl | rfl) | rfl) | rfl) | rfl <;> decide

theorem Gap.allowed {gap : List Char} (h : Gap gap) : ∀ c ∈ gap, isAllowed c = true := by
  intro c hc
  simp [isAllowed, h c hc]

theorem Operator.allowed_symbol (op : Operator) : isAllowed op.symbol = true := by
  cases op <;> decide

section Characters

variable {level : Level} {depth : Nat} {e : Expr} {text : List Char}

theorem Written.allowed (h : Written level depth e text) : ∀ c ∈ text, isAllowed c = true := by
  induction h with
  | literal hne hdigits =>
    intro c hc
    simp [isAllowed, hdigits c hc]
  | parenthesized hbefore _ hafter ih =>
    simp only [List.forall_mem_cons, List.forall_mem_append]
    exact ⟨by decide, ⟨⟨hbefore.allowed, ih⟩, hafter.allowed⟩, by decide, fun c hc => nomatch hc⟩
  | plus hgap _ ih =>
    simp only [List.forall_mem_cons, List.forall_mem_append]
    exact ⟨by decide, hgap.allowed, ih⟩
  | minus hgap _ ih =>
    simp only [List.forall_mem_cons, List.forall_mem_append]
    exact ⟨by decide, hgap.allowed, ih⟩
  | @binary _ _ op _ _ _ _ _ _ _ _ hbefore hafter _ iha ihb =>
    simp only [List.forall_mem_cons, List.forall_mem_append]
    exact ⟨⟨iha, hbefore.allowed⟩, op.allowed_symbol, hafter.allowed, ihb⟩

theorem Written.exists_cons (h : Written level depth e text) :
    ∃ c rest, text = c :: rest ∧ Text.isBlank c = false := by
  induction h with
  | @literal _ _ digits hne hdigits =>
    obtain ⟨c, rest, rfl⟩ := List.exists_cons_of_ne_nil hne
    exact ⟨c, rest, rfl, not_blank_of_isDigit (hdigits c List.mem_cons_self)⟩
  | parenthesized => exact ⟨_, _, rfl, by decide⟩
  | plus => exact ⟨_, _, rfl, by decide⟩
  | minus => exact ⟨_, _, rfl, by decide⟩
  | binary _ _ _ _ _ iha _ =>
    obtain ⟨c, rest, rfl, hc⟩ := iha
    exact ⟨c, _, rfl, hc⟩

theorem Written.endsVisible (h : Written level depth e text) : Text.EndsVisible text := by
  induction h with
  | @literal _ _ digits hne hdigits =>
    have hlast := List.getLast_mem hne
    exact ⟨digits.dropLast, digits.getLast hne, (List.dropLast_append_getLast hne).symm,
      not_blank_of_isDigit (hdigits _ hlast)⟩
  | @parenthesized _ _ _ before text after =>
    exact ⟨'(' :: (before ++ text ++ after), ')', rfl, by decide⟩
  | @plus _ _ _ gap _ _ _ ih => exact ih.append_left ('+' :: gap)
  | @minus _ _ _ gap _ _ _ ih => exact ih.append_left ('-' :: gap)
  | @binary _ _ op _ _ left before after _ _ _ _ _ _ _ ihb =>
    have happend := ihb.append_left (left ++ before ++ op.symbol :: after)
    rwa [List.append_assoc] at happend

theorem Written.trimmed (h : Written level depth e text) : Text.Trimmed text := by
  obtain ⟨c, rest, rfl, hc⟩ := h.exists_cons
  exact h.endsVisible.trimmed_cons hc

end Characters

/-! ### Reading factors -/

/-- Whether a character goes on with a number. -/
def isNumeric (c : Char) : Bool :=
  c.isDigit || c == '.'

theorem not_numeric_of_isBlank {c : Char} (hc : Text.isBlank c = true) : isNumeric c = false := by
  cases hdigit : c.isDigit with
  | true =>
    rw [not_blank_of_isDigit hdigit] at hc
    cases hc
  | false =>
    have hne : c ≠ '.' := by
      rintro rfl
      revert hc
      decide
    simp [isNumeric, hdigit, hne]

theorem stops_numeric_gap {gap : List Char} (hgap : Text.Padding gap) {c : Char}
    (hc : isNumeric c = false) (rest : List Char) : Stops isNumeric (gap ++ c :: rest) := by
  cases gap with
  | nil => exact stops_cons.mpr hc
  | cons b gap => exact stops_cons.mpr (not_numeric_of_isBlank (hgap b List.mem_cons_self))

theorem skipBlank_gap {gap : List Char} (hgap : Text.Padding gap) (cs : List Char) :
    skipBlank (gap ++ cs) = skipBlank cs :=
  Text.trimStart_append_of_padding hgap cs

theorem skipBlank_gap_cons {gap : List Char} (hgap : Text.Padding gap) {c : Char}
    (hc : Text.isBlank c = false) (rest : List Char) :
    skipBlank (gap ++ c :: rest) = c :: rest := by
  rw [skipBlank_gap hgap]
  exact Text.trimStart_cons_of_not_blank hc rest

theorem takeSigns_gap {gap : List Char} (hgap : Text.Padding gap) (cs : List Char) :
    takeSigns (gap ++ cs) = takeSigns cs := by
  induction gap with
  | nil => rfl
  | cons b gap ih =>
    have hb : Text.isBlank b = true := hgap b List.mem_cons_self
    rw [List.cons_append, takeSigns, if_pos hb]
    exact ih fun c hc => hgap c (List.mem_cons_of_mem b hc)

/-- A factor behind its signs. -/
def unsigned (length : Nat) : Nat → List Char → Result
  | 0, '(' :: _ => .error (.tooDeep maxDepth)
  | depth + 1, '(' :: rest => do
    let (x, rest) ← expression (factor length depth) rest
    let rest ← closeParen rest
    .ok (x, rest)
  | _, rest => number length rest

theorem unsigned_of_ne (length depth : Nat) {cs : List Char} (h : ∀ rest, cs ≠ '(' :: rest) :
    unsigned length depth cs = number length cs := by
  unfold unsigned
  split
  · exact absurd rfl (h _)
  · exact absurd rfl (h _)
  · rfl

theorem factor_eq (length depth : Nat) (cs : List Char) :
    factor length depth cs =
      (unsigned length depth (takeSigns cs).2).map fun (x, rest) =>
        (applySigns (takeSigns cs).1 x, rest) := by
  cases depth with
  | zero =>
    rw [factor]
    split
    · rename_i signs rest htake
      rw [htake]
      rfl
    · rename_i signs rest hnot htake
      rw [htake, unsigned_of_ne length 0 hnot]
      cases number length rest <;> rfl
  | succ depth =>
    rw [factor]
    split
    · rename_i signs rest htake
      rw [htake, unsigned]
      cases expression (factor length depth) rest with
      | error fault => rfl
      | ok read =>
        obtain ⟨x, after⟩ := read
        simp only [bind, Except.bind]
        cases closeParen after <;> rfl
    · rename_i signs rest hnot htake
      rw [htake, unsigned_of_ne length (depth + 1) hnot]
      cases number length rest <;> rfl

theorem factor_gap (length depth : Nat) {gap : List Char} (hgap : Text.Padding gap)
    (cs : List Char) :
    factor length depth (gap ++ cs) = factor length depth cs := by
  rw [factor_eq, factor_eq, takeSigns_gap hgap]

theorem factor_sign (length depth : Nat) {sign : Char} (hsign : sign = '-' ∨ sign = '+')
    (cs : List Char) :
    factor length depth (sign :: cs) =
      (factor length depth cs).map fun (x, rest) => (applySigns [sign] x, rest) := by
  have hblank : Text.isBlank sign = false := by
    rcases hsign with rfl | rfl <;> decide
  have htake : takeSigns (sign :: cs) = (sign :: (takeSigns cs).1, (takeSigns cs).2) := by
    rw [takeSigns, if_neg (by simp [hblank]), if_pos hsign]
  rw [factor_eq, factor_eq, htake]
  cases unsigned length depth (takeSigns cs).2 <;> rfl

theorem not_numeric_iff {c : Char} : isNumeric c = false ↔ c.isDigit = false ∧ c ≠ '.' := by
  simp [isNumeric]

theorem takeFraction_of_stops {rest : List Char} (h : Stops isNumeric rest) :
    Number.Numeral.takeFraction rest = (none, rest) := by
  cases rest with
  | nil => rfl
  | cons c rest =>
    have hc := (not_numeric_iff.mp (stops_cons.mp h)).2
    unfold Number.Numeral.takeFraction
    split
    · rename_i heq
      exact absurd (List.cons.inj heq).1 hc
    · rfl

theorem number_digits (length : Nat) {digits rest : List Char} (hne : digits ≠ [])
    (hdigits : ∀ c ∈ digits, c.isDigit = true) (hrest : Stops isNumeric rest) :
    number length (digits ++ rest) =
      .ok (exactOr (Text.digitsValue digits)
        (Number.nearestFloat false (Text.digitsValue digits) 0), rest) := by
  have hstops : Stops Char.isDigit rest := fun c hc => (not_numeric_iff.mp (hrest c hc)).1
  obtain ⟨htake, hdrop⟩ := takeWhile_append_of_stops hdigits hstops
  have hempty : digits.isEmpty = false := by simp [hne]
  simp only [number, htake, hdrop, takeFraction_of_stops hrest, hempty, Bool.false_eq_true,
    if_false]

theorem takeSigns_of_unsigned {c : Char} (hblank : Text.isBlank c = false) (hminus : c ≠ '-')
    (hplus : c ≠ '+') (cs : List Char) : takeSigns (c :: cs) = ([], c :: cs) := by
  rw [takeSigns, if_neg (by simp [hblank]), if_neg (by simp [hminus, hplus])]

/-! ### Reading products and sums -/

def isProductOperator (c : Char) : Bool :=
  c == '*' || c == '/'

def isSumOperator (c : Char) : Bool :=
  c == '+' || c == '-'

section Loops

variable {f : List Char → Result} {fuel : Nat} {x : Scalar}

theorem products_of_stops {rest : List Char} (hrest : Stops isProductOperator (skipBlank rest))
    (hfuel : rest.length ≤ fuel) : products f fuel x rest = .ok (x, skipBlank rest) := by
  cases fuel with
  | zero =>
    obtain rfl : rest = [] := List.eq_nil_of_length_eq_zero (by omega)
    rfl
  | succ fuel =>
    rw [products]
    split
    · rename_i heq
      rw [heq] at hrest
      exact absurd (stops_cons.mp hrest) (by decide)
    · rename_i heq
      rw [heq] at hrest
      exact absurd (stops_cons.mp hrest) (by decide)
    · rfl

theorem sums_of_stops {rest : List Char} (hrest : Stops isSumOperator (skipBlank rest))
    (hfuel : rest.length ≤ fuel) : sums f fuel x rest = .ok (x, skipBlank rest) := by
  cases fuel with
  | zero =>
    obtain rfl : rest = [] := List.eq_nil_of_length_eq_zero (by omega)
    rfl
  | succ fuel =>
    rw [sums]
    split
    · rename_i heq
      rw [heq] at hrest
      exact absurd (stops_cons.mp hrest) (by decide)
    · rename_i heq
      rw [heq] at hrest
      exact absurd (stops_cons.mp hrest) (by decide)
    · rfl

theorem products_step {op : Operator} (hop : op.level = .term) {gap : List Char}
    (hgap : Text.Padding gap) (cs : List Char) :
    products f (fuel + 1) x (gap ++ op.symbol :: cs) =
      (f cs).bind fun (y, rest) => (op.compute x y).bind fun z => products f fuel z rest := by
  cases op with
  | add => cases hop
  | subtract => cases hop
  | multiply =>
    have hskip : skipBlank (gap ++ '*' :: cs) = '*' :: cs := skipBlank_gap_cons hgap (by decide) cs
    rw [products, Operator.symbol, hskip]
    rfl
  | divide =>
    have hskip : skipBlank (gap ++ '/' :: cs) = '/' :: cs := skipBlank_gap_cons hgap (by decide) cs
    rw [products, Operator.symbol, hskip]
    refine congrArg (f cs).bind (funext fun (y, rest) => ?_)
    simp only [Operator.compute]
    split <;> rfl

theorem sums_step {op : Operator} (hop : op.level = .sum) {gap : List Char}
    (hgap : Text.Padding gap) (cs : List Char) :
    sums f (fuel + 1) x (gap ++ op.symbol :: cs) =
      (term f cs).bind fun (y, rest) => (op.compute x y).bind fun z => sums f fuel z rest := by
  cases op with
  | add =>
    have hskip : skipBlank (gap ++ '+' :: cs) = '+' :: cs := skipBlank_gap_cons hgap (by decide) cs
    rw [sums, Operator.symbol, hskip]
    rfl
  | subtract =>
    have hskip : skipBlank (gap ++ '-' :: cs) = '-' :: cs := skipBlank_gap_cons hgap (by decide) cs
    rw [sums, Operator.symbol, hskip]
    rfl
  | multiply => cases hop
  | divide => cases hop

end Loops

/-! ### Reading written expressions -/

/-- What may follow an expression that stands at a level. -/
def Level.Ends : Level → List Char → Prop
  | factor, rest => Stops isNumeric rest
  | term, rest => Stops isNumeric rest ∧ Stops isProductOperator (skipBlank rest)
  | sum, rest =>
    Stops isNumeric rest ∧ Stops isProductOperator (skipBlank rest) ∧
      Stops isSumOperator (skipBlank rest)

/-- Reading a text at a level has an outcome; at the levels of operators the loop over further
operands goes on behind it, with enough fuel for the rest. -/
def Reads : Level → Nat → Except MathFault Scalar → List Char → Prop
  | .factor, depth, outcome, text => ∀ length rest, Stops isNumeric rest →
      factor length depth (text ++ rest) = outcome.map fun x => (x, rest)
  | .term, depth, outcome, text => ∀ length rest, Stops isNumeric rest →
      ∃ fuel, rest.length ≤ fuel ∧
        term (factor length depth) (text ++ rest) =
          outcome.bind fun x => products (factor length depth) fuel x rest
  | .sum, depth, outcome, text => ∀ length rest, Level.term.Ends rest →
      ∃ fuel, (skipBlank rest).length ≤ fuel ∧
        expression (factor length depth) (text ++ rest) =
          outcome.bind fun x => sums (factor length depth) fuel x (skipBlank rest)

section Reading

variable {depth : Nat} {outcome : Except MathFault Scalar} {text : List Char}

theorem Reads.term_eq (h : Reads .term depth outcome text) (length : Nat) {rest : List Char}
    (hrest : Level.term.Ends rest) :
    term (factor length depth) (text ++ rest) = outcome.map fun x => (x, skipBlank rest) := by
  obtain ⟨fuel, hfuel, hterm⟩ := h length rest hrest.1
  rw [hterm]
  cases outcome with
  | error fault => rfl
  | ok x => exact products_of_stops hrest.2 hfuel

theorem skipBlank_skipBlank (cs : List Char) : skipBlank (skipBlank cs) = skipBlank cs :=
  List.dropWhile_idempotent Text.isBlank cs

theorem Reads.expression_eq (h : Reads .sum depth outcome text) (length : Nat) {rest : List Char}
    (hrest : Level.sum.Ends rest) :
    expression (factor length depth) (text ++ rest) =
      outcome.map fun x => (x, skipBlank rest) := by
  obtain ⟨fuel, hfuel, hexpression⟩ := h length rest ⟨hrest.1, hrest.2.1⟩
  rw [hexpression]
  cases outcome with
  | error fault => rfl
  | ok x =>
    have hstops : Stops isSumOperator (skipBlank (skipBlank rest)) := by
      rw [skipBlank_skipBlank]
      exact hrest.2.2
    have hsums := @sums_of_stops (factor length depth) fuel x _ hstops hfuel
    rw [skipBlank_skipBlank] at hsums
    exact hsums

theorem Reads.term (h : Reads .factor depth outcome text) : Reads .term depth outcome text := by
  intro length rest hrest
  refine ⟨rest.length, le_rfl, ?_⟩
  rw [Arithmetic.term, h length rest hrest]
  cases outcome <;> rfl

theorem Reads.sum (h : Reads .term depth outcome text) : Reads .sum depth outcome text := by
  intro length rest hrest
  refine ⟨(skipBlank rest).length, le_rfl, ?_⟩
  rw [expression, h.term_eq length hrest]
  cases outcome <;> rfl

theorem Reads.ofFactor (h : Reads .factor depth outcome text) (level : Level) :
    Reads level depth outcome text := by
  cases level with
  | factor => exact h
  | term => exact h.term
  | sum => exact h.term.sum

theorem not_numeric_symbols {c : Char} (hc : isNumeric c = true) :
    Text.isBlank c = false ∧ c ≠ '-' ∧ c ≠ '+' ∧ c ≠ '(' := by
  have hblank : Text.isBlank c = false := by
    rw [Bool.eq_false_iff]
    intro h
    rw [not_numeric_of_isBlank h] at hc
    cases hc
  refine ⟨hblank, ?_, ?_, ?_⟩ <;>
  · intro heq
    rw [heq] at hc
    revert hc
    decide

/-- A number is read as a factor where the digits are taken up to what follows them. -/
theorem reads_number {c : Char} {cs : List Char} {x : Scalar} (hc : isNumeric c = true)
    (hnumber : ∀ length rest, Stops isNumeric rest →
      number length (c :: cs ++ rest) = .ok (x, rest)) :
    Reads .factor depth (.ok x) (c :: cs) := by
  intro length rest hrest
  obtain ⟨hblank, hminus, hplus, hparen⟩ := not_numeric_symbols hc
  have htake : takeSigns (c :: cs ++ rest) = ([], c :: cs ++ rest) :=
    takeSigns_of_unsigned hblank hminus hplus _
  have hunsigned : ∀ tail, c :: cs ++ rest ≠ '(' :: tail := by
    intro tail heq
    exact hparen (List.cons.inj heq).1
  rw [factor_eq, htake, unsigned_of_ne length depth hunsigned, hnumber length rest hrest]
  rfl

theorem reads_literal {digits : List Char} (hne : digits ≠ [])
    (hdigits : ∀ c ∈ digits, c.isDigit = true) :
    Reads .factor depth (Expr.literal (Text.digitsValue digits)).compute digits := by
  obtain ⟨c, cs, rfl⟩ := List.exists_cons_of_ne_nil hne
  have hc : isNumeric c = true := by
    simp [isNumeric, hdigits c List.mem_cons_self]
  exact reads_number hc fun length rest hrest => number_digits length hne hdigits hrest

theorem reads_sign {sign : Char} (hsign : sign = '-' ∨ sign = '+') {gap : List Char}
    (hgap : Text.Padding gap) (h : Reads .factor depth outcome text) :
    Reads .factor depth (outcome.map (applySigns [sign])) (sign :: (gap ++ text)) := by
  intro length rest hrest
  rw [List.cons_append, List.append_assoc, factor_sign length depth hsign,
    factor_gap length depth hgap, h length rest hrest]
  cases outcome <;> rfl

theorem term_gap (length depth : Nat) {gap : List Char} (hgap : Text.Padding gap)
    (cs : List Char) :
    Arithmetic.term (factor length depth) (gap ++ cs) =
      Arithmetic.term (factor length depth) cs := by
  rw [Arithmetic.term, Arithmetic.term, factor_gap length depth hgap]

theorem expression_gap (length depth : Nat) {gap : List Char} (hgap : Text.Padding gap)
    (cs : List Char) :
    expression (factor length depth) (gap ++ cs) = expression (factor length depth) cs := by
  rw [expression, expression, term_gap length depth hgap]

theorem reads_parenthesized {before after : List Char} (hbefore : Text.Padding before)
    (hafter : Text.Padding after) (h : Reads .sum depth outcome text) :
    Reads .factor (depth + 1) outcome ('(' :: (before ++ text ++ after ++ [')'])) := by
  intro length rest hrest
  have hclose : skipBlank (after ++ ')' :: rest) = ')' :: rest :=
    skipBlank_gap_cons hafter (by decide) rest
  have hends : Level.sum.Ends (after ++ ')' :: rest) := by
    refine ⟨stops_numeric_gap hafter (by decide) rest, ?_, ?_⟩ <;>
    · rw [hclose]
      exact stops_cons.mpr (by decide)
  have htext : '(' :: (before ++ text ++ after ++ [')']) ++ rest =
      '(' :: (before ++ (text ++ (after ++ ')' :: rest))) := by
    simp
  have htake : takeSigns ('(' :: (before ++ (text ++ (after ++ ')' :: rest)))) =
      ([], '(' :: (before ++ (text ++ (after ++ ')' :: rest)))) :=
    takeSigns_of_unsigned (by decide) (by decide) (by decide) _
  have hread := h.expression_eq length hends
  rw [hclose] at hread
  rw [htext, factor_eq, htake, unsigned, expression_gap length depth hbefore, hread]
  cases outcome <;> rfl

/-- The outcome of an operation on two outcomes. -/
def Operator.combine (op : Operator) (a b : Except MathFault Scalar) : Except MathFault Scalar :=
  a.bind fun x => b.bind fun y => op.compute x y

section Operations

variable {a b : Except MathFault Scalar} {left right : List Char}

theorem reads_product {op : Operator} (hop : op.level = .term) {before after : List Char}
    (ha : Reads .term depth a left) (hbefore : Text.Padding before) (hafter : Text.Padding after)
    (hb : Reads .factor depth b right) :
    Reads .term depth (op.combine a b) (left ++ before ++ op.symbol :: (after ++ right)) := by
  intro length rest hrest
  have htext : left ++ before ++ op.symbol :: (after ++ right) ++ rest =
      left ++ (before ++ op.symbol :: (after ++ (right ++ rest))) := by
    simp
  have hsymbol : isNumeric op.symbol = false := by
    cases op <;> decide
  obtain ⟨fuel, hfuel, hterm⟩ := ha length (before ++ op.symbol :: (after ++ (right ++ rest)))
    (stops_numeric_gap hbefore hsymbol _)
  simp only [List.length_append, List.length_cons] at hfuel
  obtain ⟨fuel, rfl⟩ : ∃ k, fuel = k + 1 := ⟨fuel - 1, by omega⟩
  refine ⟨fuel, by omega, ?_⟩
  rw [htext, hterm, Operator.combine]
  cases a with
  | error fault => rfl
  | ok x =>
    simp only [Except.bind]
    rw [products_step hop hbefore, factor_gap length depth hafter, hb length rest hrest]
    cases b <;> rfl

theorem reads_sum {op : Operator} (hop : op.level = .sum) {before after : List Char}
    (ha : Reads .sum depth a left) (hbefore : Text.Padding before) (hafter : Text.Padding after)
    (hb : Reads .term depth b right) :
    Reads .sum depth (op.combine a b) (left ++ before ++ op.symbol :: (after ++ right)) := by
  intro length rest hrest
  have htext : left ++ before ++ op.symbol :: (after ++ right) ++ rest =
      left ++ (before ++ op.symbol :: (after ++ (right ++ rest))) := by
    simp
  have hsymbol : isNumeric op.symbol = false ∧ Text.isBlank op.symbol = false := by
    cases op <;> decide
  have hskip := skipBlank_gap_cons hbefore hsymbol.2 (after ++ (right ++ rest))
  have hends : Level.term.Ends (before ++ op.symbol :: (after ++ (right ++ rest))) := by
    refine ⟨stops_numeric_gap hbefore hsymbol.1 _, ?_⟩
    rw [hskip]
    refine stops_cons.mpr ?_
    cases op <;> first | rfl | cases hop
  obtain ⟨fuel, hfuel, hexpression⟩ := ha length _ hends
  rw [hskip] at hfuel hexpression
  have hshorter : (skipBlank rest).length ≤ rest.length := (List.dropWhile_sublist _).length_le
  simp only [List.length_append, List.length_cons] at hfuel
  obtain ⟨fuel, rfl⟩ : ∃ k, fuel = k + 1 := ⟨fuel - 1, by omega⟩
  refine ⟨fuel, by omega, ?_⟩
  rw [htext, hexpression, Operator.combine]
  cases a with
  | error fault => rfl
  | ok x =>
    have hstep := @sums_step (factor length depth) fuel x op hop [] Text.padding_nil
      (after ++ (right ++ rest))
    rw [List.nil_append] at hstep
    simp only [Except.bind]
    rw [hstep, term_gap length depth hafter, hb.term_eq length hrest]
    cases b <;> rfl

end Operations

end Reading

theorem Level.Admits.level_eq {level : Level} {op : Operator} (h : level.Admits op) :
    level = .sum ∨ level = .term ∧ op.level = .term := by
  cases level with
  | factor => exact absurd h id
  | term => exact Or.inr ⟨rfl, h⟩
  | sum => exact Or.inl rfl

theorem reads_binary {level : Level} {depth : Nat} {op : Operator}
    {a b : Except MathFault Scalar} {left before after right : List Char}
    (hlevel : level.Admits op) (ha : Reads op.level depth a left) (hbefore : Text.Padding before)
    (hafter : Text.Padding after) (hb : Reads op.operandLevel depth b right) :
    Reads level depth (op.combine a b) (left ++ before ++ op.symbol :: (after ++ right)) := by
  have hcases : op.level = .term ∧ op.operandLevel = .factor ∨
      op.level = .sum ∧ op.operandLevel = .term := by
    cases op <;> simp [Operator.level, Operator.operandLevel]
  rcases hcases with ⟨hop, hoperand⟩ | ⟨hop, hoperand⟩
  · rw [hop] at ha
    rw [hoperand] at hb
    have hterm := reads_product hop ha hbefore hafter hb
    rcases hlevel.level_eq with rfl | ⟨rfl, -⟩
    · exact hterm.sum
    · exact hterm
  · rw [hop] at ha
    rw [hoperand] at hb
    rcases hlevel.level_eq with rfl | ⟨-, hterm⟩
    · exact reads_sum hop ha hbefore hafter hb
    · rw [hop] at hterm
      cases hterm

/-- Reading a written expression computes it. -/
theorem Written.reads {level : Level} {depth : Nat} {e : Expr} {text : List Char}
    (h : Written level depth e text) : Reads level depth e.compute text := by
  induction h with
  | literal hne hdigits => exact (reads_literal hne hdigits).ofFactor _
  | parenthesized hbefore _ hafter ih =>
    exact (reads_parenthesized hbefore.padding hafter.padding ih).ofFactor _
  | @plus _ _ e _ _ hgap _ ih =>
    have hcompute : e.compute.map (applySigns ['+']) = e.plus.compute := by
      rw [Expr.compute]
      cases e.compute <;> rfl
    have hread := reads_sign (.inr rfl) hgap.padding ih
    rw [hcompute] at hread
    exact hread.ofFactor _
  | minus hgap _ ih => exact (reads_sign (.inl rfl) hgap.padding ih).ofFactor _
  | binary hlevel _ hbefore hafter _ iha ihb =>
    exact reads_binary hlevel iha hbefore.padding hafter.padding ihb

/-! ### Evaluating written expressions -/

theorem Reads.evaluateWhole_eq {outcome : Except MathFault Scalar} {text : List Char}
    (h : Reads .sum maxDepth outcome text) : evaluateWhole text = outcome := by
  have hends : Level.sum.Ends [] := ⟨stops_nil _, stops_nil _, stops_nil _⟩
  have hread := h.expression_eq text.length hends
  rw [List.append_nil] at hread
  rw [evaluateWhole, hread]
  cases outcome <;> rfl

/-- A text of allowed characters, not blank and not too long, is evaluated without the white space
around it. -/
theorem evaluate_eq {s : String} (hallowed : ∀ c ∈ s.toList, isAllowed c = true)
    (hne : Text.trim s.toList ≠ [])
    (hlength : Text.byteLength (Text.trim s.toList) ≤ maxLength) :
    evaluate s = (evaluateWhole (Text.trim s.toList)).mapError fun fault =>
      ⟨String.ofList (Text.trim s.toList), fault⟩ := by
  have hrejected : s.toList.filter (fun c => !isAllowed c) = [] :=
    List.filter_eq_nil_iff.mpr fun c hc => by simp [hallowed c hc]
  rw [evaluate, hrejected]
  simp only [List.isEmpty_nil, Bool.not_true, Bool.false_eq_true, if_false,
    List.isEmpty_eq_false_iff.mpr hne, if_neg (Nat.not_lt.mpr hlength)]

theorem Written.evaluate_eq {e : Expr} {before text after : List Char} (hbefore : Gap before)
    (h : Written .sum maxDepth e text) (hafter : Gap after)
    (hlength : Text.byteLength text ≤ maxLength) :
    evaluate (String.ofList (before ++ text ++ after)) =
      e.compute.mapError fun fault => ⟨String.ofList text, fault⟩ := by
  have hallowed : ∀ c ∈ before ++ text ++ after, isAllowed c = true := by
    simp only [List.forall_mem_append]
    exact ⟨⟨hbefore.allowed, h.allowed⟩, hafter.allowed⟩
  have htrim : Text.trim (before ++ text ++ after) = text := by
    rw [Text.trim_padded hbefore.padding hafter.padding]
    exact h.trimmed
  have hne : text ≠ [] := by
    obtain ⟨c, rest, rfl, -⟩ := h.exists_cons
    exact List.cons_ne_nil c rest
  have heval := Arithmetic.evaluate_eq (s := String.ofList (before ++ text ++ after))
  rw [String.toList_ofList, htrim] at heval
  rw [heval hallowed hne hlength, h.reads.evaluateWhole_eq]

/-- Evaluating a written expression of at most 500 bytes, with parentheses at most 10 deep and any
blanks around it, gives an integer exactly if every part of the expression, its literals included,
has an exact value that is an integer of 64 bits, and the integer is then the value of the whole.
Otherwise the result is a float or an error. -/
theorem evaluate_written {e : Expr} {before text after : List Char} (hbefore : Gap before)
    (htext : Written .sum maxDepth e text) (hafter : Gap after)
    (hlength : Text.byteLength text ≤ maxLength) :
    (∀ n, evaluate (String.ofList (before ++ text ++ after)) = .ok (.int n) ↔
      e.StaysInteger ∧ e.value = some (n.toInt : ℚ)) ∧
    (¬ e.StaysInteger →
      (∃ x, evaluate (String.ofList (before ++ text ++ after)) = .ok (.float x)) ∨
      ∃ error, evaluate (String.ofList (before ++ text ++ after)) = .error error) := by
  rw [htext.evaluate_eq hbefore hafter hlength]
  have hiff := e.compute_eq_int_iff
  cases hcompute : e.compute with
  | error fault =>
    rw [hcompute] at hiff
    refine ⟨fun n => ?_, fun _ => Or.inr ⟨_, rfl⟩⟩
    rw [← hiff n]
    simp [Except.mapError]
  | ok x =>
    rw [hcompute] at hiff
    refine ⟨fun n => ?_, fun hleaves => ?_⟩
    · rw [← hiff n]
      simp [Except.mapError]
    · cases x with
      | int n => exact absurd ((hiff n).mp rfl).1 hleaves
      | float x => exact Or.inl ⟨x, rfl⟩

def greatest : Expr :=
  .literal 9223372036854775807

/-- The least integer of 64 bits, without a number on the way that is too large. -/
def least : Expr :=
  .binary .subtract (.minus greatest) (.literal 1)

/-- The same value, from a sum that is too large by one. -/
def leastOfSum : Expr :=
  .minus (.binary .add greatest (.literal 1))

theorem written_greatest {level : Level} {depth : Nat} :
    Written level depth greatest "9223372036854775807".toList :=
  @Written.literal level depth "9223372036854775807".toList (by decide)
    (List.all_eq_true.mp (by decide))

theorem written_one {level : Level} {depth : Nat} : Written level depth (.literal 1) ['1'] :=
  @Written.literal level depth ['1'] (by decide) (List.all_eq_true.mp (by decide))

theorem written_least : Written .sum maxDepth least "-9223372036854775807 -\t1".toList := by
  have hminus : Written .sum maxDepth (.minus greatest) "-9223372036854775807".toList :=
    @Written.minus .sum maxDepth greatest [] _ (by decide) written_greatest
  exact @Written.binary .sum maxDepth .subtract _ _ _ [' '] ['\t'] _ trivial hminus (by decide)
    (by decide) written_one

theorem written_leastOfSum :
    Written .sum maxDepth leastOfSum "-(9223372036854775807+1 )".toList := by
  have hsum : Written .sum 9 (.binary .add greatest (.literal 1)) "9223372036854775807+1".toList :=
    @Written.binary .sum 9 .add _ _ _ [] [] _ trivial written_greatest (by decide) (by decide)
      written_one
  have hparenthesized := @Written.parenthesized .factor 9 _ [] _ [' '] (by decide) hsum (by decide)
  exact @Written.minus .sum maxDepth _ [] _ (by decide) hparenthesized

theorem value_greatest : greatest.value = some (Int64.maxValue.toInt : ℚ) := by
  rw [Int64.toInt_maxValue, greatest, Expr.value]
  norm_num

theorem value_least : least.value = some (Int64.minValue.toInt : ℚ) := by
  rw [Int64.toInt_minValue]
  simp only [least, greatest, Expr.value, Option.map_some, Option.bind_some, Operator.value?]
  norm_num

theorem staysInteger_least : least.StaysInteger := by
  have hone : (Expr.literal 1).HasInteger := ⟨1, by decide⟩
  have hminus : (Expr.minus greatest).HasInteger := by
    have hnegated : (-Int64.maxValue).toInt = -9223372036854775807 := by decide
    refine ⟨-Int64.maxValue, ?_⟩
    rw [hnegated, Expr.value, value_greatest, Int64.toInt_maxValue]
    norm_num
  have hgreatest : greatest.StaysInteger := Expr.staysInteger_literal.mpr ⟨_, value_greatest⟩
  exact Expr.staysInteger_binary.mpr ⟨⟨_, value_least⟩,
    Expr.staysInteger_minus.mpr ⟨hminus, hgreatest⟩, Expr.staysInteger_literal.mpr hone⟩

theorem not_staysInteger_leastOfSum : ¬ leastOfSum.StaysInteger := by
  intro h
  obtain ⟨n, hn⟩ := (Expr.staysInteger_minus.mp h).2.hasInteger
  have hlt := n.toInt_lt
  simp only [greatest, Expr.value, Option.bind_some, Operator.value?, Option.some.injEq] at hn
  have hsum : (9223372036854775807 + 1 : Int) = n.toInt := by exact_mod_cast hn
  omega

/-- Both expressions have the least integer as their value, but only the first stays an integer. -/
theorem evaluate_least :
    Written .sum maxDepth least "-9223372036854775807 -\t1".toList ∧
      evaluate " -9223372036854775807 -\t1" = .ok (.int Int64.minValue) ∧
      Written .sum maxDepth leastOfSum "-(9223372036854775807+1 )".toList ∧
      ∀ n, evaluate "-(9223372036854775807+1 )" ≠ .ok (.int n) := by
  have hnone : Gap [] := by decide
  have hspace : Gap [' '] := by decide
  refine ⟨written_least, ?_, written_leastOfSum, fun n hn => ?_⟩
  · have hiff := (evaluate_written hspace written_least hnone (by decide)).1 Int64.minValue
    exact hiff.mpr ⟨staysInteger_least, value_least⟩
  · have hiff := (evaluate_written hnone written_leastOfSum hnone (by decide)).1 n
    exact not_staysInteger_leastOfSum (hiff.mp hn).1

end Placeholder.Arithmetic
