import Mathlib
import Placeholder.Proofs.Searching
import Placeholder.Proofs.WrittenArithmetic

/-!
# The grammar of arithmetic expressions

The texts that the evaluator accepts are those of a grammar, where a number is digits with at most
one point. The grammar asks for a digit in each number, and the evaluator does not: a point that
stands alone is a number as well. Every text of the wider grammar is accepted unless it divides by
zero, and nothing else is accepted.
-/

namespace Placeholder.Arithmetic

open Clause (Stops stops_nil stops_cons takeWhile_append_of_stops)
open Number (Scalar)
open Text (Padding padding_nil padding_append)

/-! ### The grammar -/

/-- Digits with at most one point, and at least one digit. -/
structure IsNumber (cs : List Char) : Prop where
  numeric : ∀ c ∈ cs, isNumeric c = true
  points : cs.count '.' ≤ 1
  exists_digit : ∃ c ∈ cs, c.isDigit = true

def IsNumberOrPoint (cs : List Char) : Prop :=
  cs = ['.'] ∨ IsNumber cs

/-- The texts of the grammar at a level, for a class of numbers, with at most `depth` parentheses
open at a time. -/
inductive Derives (number : List Char → Prop) : Level → Nat → List Char → Prop where
  | number {depth : Nat} {text : List Char} : number text → Derives number .factor depth text
  | signed {depth : Nat} {sign : Char} {gap text : List Char} : sign = '-' ∨ sign = '+' →
      Padding gap → Derives number .factor depth text →
      Derives number .factor depth (sign :: (gap ++ text))
  | group {depth : Nat} {before text after : List Char} : Padding before →
      Derives number .sum depth text → Padding after →
      Derives number .factor (depth + 1) ('(' :: (before ++ text ++ after ++ [')']))
  | operand {depth : Nat} {text : List Char} : Derives number .factor depth text →
      Derives number .term depth text
  | summand {depth : Nat} {text : List Char} : Derives number .term depth text →
      Derives number .sum depth text
  | operation {depth : Nat} {op : Operator} {left before after right : List Char} :
      Derives number op.level depth left → Padding before → Padding after →
      Derives number op.operandLevel depth right →
      Derives number op.level depth (left ++ before ++ op.symbol :: (after ++ right))

/-! ### Numbers -/

theorem digits_of_not_mem {cs : List Char} (h : ∀ c ∈ cs, isNumeric c = true) (hpoint : '.' ∉ cs) :
    ∀ c ∈ cs, c.isDigit = true := by
  intro c hc
  have hnumeric := h c hc
  have hne : c ≠ '.' := fun heq => hpoint (heq ▸ hc)
  simpa [isNumeric, hne] using hnumeric

theorem not_mem_of_digits {cs : List Char} (h : ∀ c ∈ cs, c.isDigit = true) : '.' ∉ cs := by
  intro hmem
  have hdigit := h '.' hmem
  revert hdigit
  decide

/-- Numbers and lone points are digits, or digits around a point. -/
theorem isNumberOrPoint_iff {cs : List Char} :
    IsNumberOrPoint cs ↔ (cs ≠ [] ∧ ∀ c ∈ cs, c.isDigit = true) ∨
      ∃ whole places, cs = whole ++ '.' :: places ∧ (∀ c ∈ whole, c.isDigit = true) ∧
        ∀ c ∈ places, c.isDigit = true := by
  constructor
  · intro h
    rcases h with rfl | ⟨hnumeric, hpoints, d, hd, hdigit⟩
    · exact Or.inr ⟨[], [], by simp⟩
    · by_cases hmem : '.' ∈ cs
      · obtain ⟨whole, places, rfl⟩ := List.append_of_mem hmem
        simp only [List.count_append, List.count_cons_self] at hpoints
        simp only [List.forall_mem_append, List.forall_mem_cons] at hnumeric
        have hwhole : '.' ∉ whole := List.count_eq_zero.mp (by omega)
        have hplaces : '.' ∉ places := List.count_eq_zero.mp (by omega)
        exact Or.inr ⟨whole, places, rfl, digits_of_not_mem hnumeric.1 hwhole,
          digits_of_not_mem hnumeric.2.2 hplaces⟩
      · exact Or.inl ⟨List.ne_nil_of_mem hd, digits_of_not_mem hnumeric hmem⟩
  · intro h
    rcases h with ⟨hne, hdigits⟩ | ⟨whole, places, rfl, hwhole, hplaces⟩
    · obtain ⟨c, hc⟩ := List.exists_mem_of_ne_nil cs hne
      have hcount := List.count_eq_zero.mpr (not_mem_of_digits hdigits)
      exact Or.inr ⟨fun d hd => by simp [isNumeric, hdigits d hd], by omega, c, hc, hdigits c hc⟩
    · have hcountWhole := List.count_eq_zero.mpr (not_mem_of_digits hwhole)
      have hcountPlaces := List.count_eq_zero.mpr (not_mem_of_digits hplaces)
      have hnumeric : ∀ c ∈ whole ++ '.' :: places, isNumeric c = true := by
        simp only [List.forall_mem_append, List.forall_mem_cons]
        exact ⟨fun c hc => by simp [isNumeric, hwhole c hc], by decide,
          fun c hc => by simp [isNumeric, hplaces c hc]⟩
      have hpoints : (whole ++ '.' :: places).count '.' ≤ 1 := by
        simp only [List.count_append, List.count_cons_self]
        omega
      by_cases hdigit : ∃ c ∈ whole ++ '.' :: places, c.isDigit = true
      · exact Or.inr ⟨hnumeric, hpoints, hdigit⟩
      · have hnil : whole = [] ∧ places = [] := by
          constructor <;> refine List.eq_nil_iff_forall_not_mem.mpr fun c hc => hdigit ⟨c, ?_, ?_⟩
          · exact List.mem_append_left _ hc
          · exact hwhole c hc
          · exact List.mem_append_right _ (List.mem_cons_of_mem _ hc)
          · exact hplaces c hc
        rw [hnil.1, hnil.2]
        exact Or.inl rfl

theorem IsNumberOrPoint.numeric {cs : List Char} (h : IsNumberOrPoint cs) :
    ∀ c ∈ cs, isNumeric c = true := by
  rcases h with rfl | h
  · simp [isNumeric]
  · exact h.numeric

theorem IsNumberOrPoint.exists_cons {cs : List Char} (h : IsNumberOrPoint cs) :
    ∃ c rest, cs = c :: rest := by
  rcases h with rfl | ⟨-, -, c, hc, -⟩
  · exact ⟨_, _, rfl⟩
  · exact List.exists_cons_of_ne_nil (List.ne_nil_of_mem hc)

theorem number_point (length : Nat) {whole places rest : List Char}
    (hwhole : ∀ c ∈ whole, c.isDigit = true) (hplaces : ∀ c ∈ places, c.isDigit = true)
    (hrest : Stops isNumeric rest) :
    number length (whole ++ '.' :: places ++ rest) =
      .ok (.float (Number.nearestFloat false (Text.digitsValue (whole ++ places))
        (-(places.length : Int))), rest) := by
  have htext : whole ++ '.' :: places ++ rest = whole ++ '.' :: (places ++ rest) := by
    simp
  have hstops : Stops Char.isDigit rest := fun c hc => (not_numeric_iff.mp (hrest c hc)).1
  have hpoint : Stops Char.isDigit ('.' :: (places ++ rest)) := stops_cons.mpr (by decide)
  obtain ⟨htakeWhole, hdropWhole⟩ := takeWhile_append_of_stops hwhole hpoint
  obtain ⟨htakePlaces, hdropPlaces⟩ := takeWhile_append_of_stops hplaces hstops
  simp only [number, htext, htakeWhole, hdropWhole, Number.Numeral.takeFraction, htakePlaces,
    hdropPlaces]

theorem reads_isNumberOrPoint {depth : Nat} {text : List Char} (h : IsNumberOrPoint text) :
    ∃ x, Reads .factor depth (.ok x) text := by
  obtain ⟨c, cs, rfl⟩ := h.exists_cons
  have hc : isNumeric c = true := h.numeric c List.mem_cons_self
  rcases isNumberOrPoint_iff.mp h with ⟨hne, hdigits⟩ | ⟨whole, places, htext, hwhole, hplaces⟩
  · exact ⟨_, reads_literal hne hdigits⟩
  · refine ⟨.float (Number.nearestFloat false (Text.digitsValue (whole ++ places))
      (-(places.length : Int))), reads_number hc fun length rest hrest => ?_⟩
    rw [htext]
    exact number_point length hwhole hplaces hrest

theorem takeFraction_eq (cs : List Char) :
    Number.Numeral.takeFraction cs = (none, cs) ∨
      ∃ tail, cs = '.' :: tail ∧ Number.Numeral.takeFraction cs =
        (some (tail.takeWhile Char.isDigit), tail.dropWhile Char.isDigit) := by
  unfold Number.Numeral.takeFraction
  split
  · exact Or.inr ⟨_, rfl, rfl⟩
  · exact Or.inl rfl

/-- What is read as a number is one, or a lone point. -/
theorem exists_of_number {length : Nat} {cs rest : List Char} {x : Scalar}
    (h : number length cs = .ok (x, rest)) :
    ∃ text, IsNumberOrPoint text ∧ cs = text ++ rest := by
  have hwhole : ∀ c ∈ cs.takeWhile Char.isDigit, c.isDigit = true := fun c hc =>
    List.mem_takeWhile_imp hc
  have hcut : cs.takeWhile Char.isDigit ++ cs.dropWhile Char.isDigit = cs :=
    List.takeWhile_append_dropWhile
  rcases takeFraction_eq (cs.dropWhile Char.isDigit) with hnone | ⟨tail, hpoint, hsome⟩
  · by_cases hempty : cs.takeWhile Char.isDigit = []
    · simp [number, hnone, hempty] at h
    · simp [number, hnone, hempty] at h
      obtain ⟨-, rfl⟩ := h
      exact ⟨_, isNumberOrPoint_iff.mpr (Or.inl ⟨hempty, hwhole⟩), hcut.symm⟩
  · simp only [number, hsome, Except.ok.injEq, Prod.mk.injEq] at h
    obtain ⟨-, rfl⟩ := h
    have hplaces : ∀ c ∈ tail.takeWhile Char.isDigit, c.isDigit = true := fun c hc =>
      List.mem_takeWhile_imp hc
    refine ⟨_, isNumberOrPoint_iff.mpr (Or.inr ⟨_, _, rfl, hwhole, hplaces⟩), ?_⟩
    rw [List.append_assoc, List.cons_append, List.takeWhile_append_dropWhile, ← hpoint, hcut]

/-! ### Every text of the grammar is read -/

/-- An outcome without another error than a division by zero. -/
def OnlyDivides {α : Type} (outcome : Except MathFault α) : Prop :=
  ∀ fault, outcome = .error fault → fault = .divisionByZero

theorem onlyDivides_ok {α : Type} (x : α) : OnlyDivides (.ok x : Except MathFault α) := by
  intro fault h
  cases h

theorem OnlyDivides.map {α β : Type} {outcome : Except MathFault α} (h : OnlyDivides outcome)
    (f : α → β) : OnlyDivides (outcome.map f) := by
  cases outcome with
  | ok x => exact onlyDivides_ok (f x)
  | error fault =>
    intro other heq
    cases heq
    exact h fault rfl

theorem OnlyDivides.bind {α β : Type} {outcome : Except MathFault α} (h : OnlyDivides outcome)
    {f : α → Except MathFault β} (hf : ∀ x, OnlyDivides (f x)) : OnlyDivides (outcome.bind f) := by
  cases outcome with
  | ok x => exact hf x
  | error fault =>
    intro other heq
    cases heq
    exact h fault rfl

theorem Operator.onlyDivides_compute (op : Operator) (x y : Scalar) :
    OnlyDivides (op.compute x y) := by
  cases op with
  | add => exact onlyDivides_ok _
  | subtract => exact onlyDivides_ok _
  | multiply => exact onlyDivides_ok _
  | divide =>
    intro fault h
    simp only [compute] at h
    split at h
    · cases h
      rfl
    · cases h

theorem Operator.admits_level (op : Operator) : op.level.Admits op := by
  cases op <;> first | rfl | trivial

theorem Derives.exists_reads {level : Level} {depth : Nat} {text : List Char}
    (h : Derives IsNumberOrPoint level depth text) :
    ∃ outcome, Reads level depth outcome text ∧ OnlyDivides outcome := by
  induction h with
  | number h =>
    obtain ⟨x, hreads⟩ := reads_isNumberOrPoint h
    exact ⟨_, hreads, onlyDivides_ok x⟩
  | signed hsign hgap _ ih =>
    obtain ⟨outcome, hreads, honly⟩ := ih
    exact ⟨_, reads_sign hsign hgap hreads, honly.map _⟩
  | group hbefore _ hafter ih =>
    obtain ⟨outcome, hreads, honly⟩ := ih
    exact ⟨outcome, reads_parenthesized hbefore hafter hreads, honly⟩
  | operand _ ih =>
    obtain ⟨outcome, hreads, honly⟩ := ih
    exact ⟨outcome, hreads.term, honly⟩
  | summand _ ih =>
    obtain ⟨outcome, hreads, honly⟩ := ih
    exact ⟨outcome, hreads.sum, honly⟩
  | @operation _ op _ _ _ _ _ hbefore hafter _ iha ihb =>
    obtain ⟨a, ha, honlyA⟩ := iha
    obtain ⟨b, hb, honlyB⟩ := ihb
    exact ⟨op.combine a b, reads_binary op.admits_level ha hbefore hafter hb,
      honlyA.bind fun x => honlyB.bind fun y => op.onlyDivides_compute x y⟩

/-! ### Nothing else is read -/

/-- What is taken from a text at a level, with white space around it, is of the grammar. -/
def Consumes (level : Level) (depth : Nat) (cs rest : List Char) : Prop :=
  ∃ before text after, Padding before ∧ Derives IsNumberOrPoint level depth text ∧
    Padding after ∧ cs = before ++ text ++ after ++ rest

theorem exists_padding_skipBlank (cs : List Char) :
    ∃ gap, Padding gap ∧ cs = gap ++ skipBlank cs :=
  Text.exists_padding_trimStart cs

section Consuming

variable {level : Level} {depth : Nat} {cs rest : List Char}

theorem Consumes.skip (h : Consumes level depth cs rest) :
    Consumes level depth cs (skipBlank rest) := by
  obtain ⟨before, text, after, hbefore, htext, hafter, rfl⟩ := h
  obtain ⟨gap, hgap, hrest⟩ := exists_padding_skipBlank rest
  refine ⟨before, text, after ++ gap, hbefore, htext, padding_append.mpr ⟨hafter, hgap⟩, ?_⟩
  rw [← List.append_assoc, List.append_assoc _ gap, ← hrest]

theorem Consumes.gap (h : Consumes level depth cs rest) {b : Char} (hb : Text.isBlank b = true) :
    Consumes level depth (b :: cs) rest := by
  obtain ⟨before, text, after, hbefore, htext, hafter, rfl⟩ := h
  exact ⟨b :: before, text, after, List.forall_mem_cons.mpr ⟨hb, hbefore⟩, htext, hafter, rfl⟩

theorem Consumes.signed (h : Consumes .factor depth cs rest) {sign : Char}
    (hsign : sign = '-' ∨ sign = '+') : Consumes .factor depth (sign :: cs) rest := by
  obtain ⟨before, text, after, hbefore, htext, hafter, rfl⟩ := h
  exact ⟨[], _, after, padding_nil, .signed hsign hbefore htext, hafter, rfl⟩

theorem Consumes.signs (h : Consumes .factor depth (takeSigns cs).2 rest) :
    Consumes .factor depth cs rest := by
  induction cs with
  | nil => exact h
  | cons c cs ih =>
    rw [takeSigns] at h
    split at h
    · rename_i hblank
      exact (ih h).gap hblank
    · split at h
      · rename_i hsign
        exact (ih h).signed hsign
      · exact h

theorem Consumes.operation (op : Operator) {more tail : List Char}
    (h : Consumes op.level depth cs rest) (hskip : skipBlank rest = op.symbol :: more)
    (hmore : Consumes op.operandLevel depth more tail) : Consumes op.level depth cs tail := by
  have hleft := h.skip
  rw [hskip] at hleft
  obtain ⟨before, left, gap, hbefore, hleft, hgap, rfl⟩ := hleft
  obtain ⟨gap', right, after, hgap', hright, hafter, rfl⟩ := hmore
  refine ⟨before, _, after, hbefore, .operation hleft hgap hgap' hright, hafter, ?_⟩
  simp only [List.append_assoc, List.cons_append]

theorem Consumes.operand (h : Consumes .factor depth cs rest) : Consumes .term depth cs rest := by
  obtain ⟨before, text, after, hbefore, htext, hafter, rfl⟩ := h
  exact ⟨before, text, after, hbefore, .operand htext, hafter, rfl⟩

theorem Consumes.summand (h : Consumes .term depth cs rest) : Consumes .sum depth cs rest := by
  obtain ⟨before, text, after, hbefore, htext, hafter, rfl⟩ := h
  exact ⟨before, text, after, hbefore, .summand htext, hafter, rfl⟩

theorem Consumes.group (h : Consumes .sum depth cs rest) {tail : List Char}
    (hclose : skipBlank rest = ')' :: tail) : Consumes .factor (depth + 1) ('(' :: cs) tail := by
  have hinner := h.skip
  rw [hclose] at hinner
  obtain ⟨before, text, after, hbefore, htext, hafter, rfl⟩ := hinner
  refine ⟨[], _, [], padding_nil, .group hbefore htext hafter, padding_nil, ?_⟩
  simp only [List.nil_append, List.append_nil, List.append_assoc, List.cons_append]

end Consuming

section Loops

variable {f : List Char → Result} {depth fuel : Nat} {x y : Scalar} {whole cs rest : List Char}

/-- Whether a reader takes factors of the grammar. -/
def TakesFactors (f : List Char → Result) (depth : Nat) : Prop :=
  ∀ cs rest x, f cs = .ok (x, rest) → Consumes .factor depth cs rest

theorem products_consumes (hf : TakesFactors f depth) (hwhole : Consumes .term depth whole cs)
    (h : products f fuel x cs = .ok (y, rest)) : Consumes .term depth whole rest := by
  induction fuel generalizing x cs with
  | zero =>
    cases h
    exact hwhole
  | succ fuel ih =>
    rw [products] at h
    split at h
    · rename_i more hskip
      obtain ⟨⟨z, tail⟩, hread, h⟩ := exists_of_bind_eq_ok h
      exact ih (hwhole.operation .multiply hskip (hf more tail z hread)) h
    · rename_i more hskip
      obtain ⟨⟨z, tail⟩, hread, h⟩ := exists_of_bind_eq_ok h
      dsimp only at h
      split at h
      · cases h
      · exact ih (hwhole.operation .divide hskip (hf more tail z hread)) h
    · cases h
      exact hwhole.skip

theorem term_consumes (hf : TakesFactors f depth) (h : term f cs = .ok (x, rest)) :
    Consumes .term depth cs rest := by
  obtain ⟨⟨z, tail⟩, hread, h⟩ := exists_of_bind_eq_ok h
  exact products_consumes hf (hf cs tail z hread).operand h

theorem sums_consumes (hf : TakesFactors f depth) (hwhole : Consumes .sum depth whole cs)
    (h : sums f fuel x cs = .ok (y, rest)) : Consumes .sum depth whole rest := by
  induction fuel generalizing x cs with
  | zero =>
    cases h
    exact hwhole
  | succ fuel ih =>
    rw [sums] at h
    split at h
    · rename_i more hskip
      obtain ⟨⟨z, tail⟩, hread, h⟩ := exists_of_bind_eq_ok h
      exact ih (hwhole.operation .add hskip (term_consumes hf hread)) h
    · rename_i more hskip
      obtain ⟨⟨z, tail⟩, hread, h⟩ := exists_of_bind_eq_ok h
      exact ih (hwhole.operation .subtract hskip (term_consumes hf hread)) h
    · cases h
      exact hwhole.skip

theorem expression_consumes (hf : TakesFactors f depth) (h : expression f cs = .ok (x, rest)) :
    Consumes .sum depth cs rest := by
  obtain ⟨⟨z, tail⟩, hread, h⟩ := exists_of_bind_eq_ok h
  exact sums_consumes hf (term_consumes hf hread).summand h

end Loops

theorem number_consumes {length depth : Nat} {cs rest : List Char} {x : Scalar}
    (h : number length cs = .ok (x, rest)) : Consumes .factor depth cs rest := by
  obtain ⟨text, htext, hcs⟩ := exists_of_number h
  refine ⟨[], text, [], padding_nil, .number htext, padding_nil, ?_⟩
  rw [List.append_nil, List.nil_append, hcs]

theorem skipBlank_of_closeParen {cs rest : List Char} (h : closeParen cs = .ok rest) :
    skipBlank cs = ')' :: rest := by
  rw [closeParen] at h
  split at h
  · rename_i heq
    cases h
    exact heq
  · cases h

/-- A factor behind its signs is of the grammar when the factors inside its parentheses are. -/
theorem unsigned_consumes {length depth : Nat} {cs rest : List Char} {x : Scalar}
    (hf : ∀ inner, depth = inner + 1 → TakesFactors (factor length inner) inner)
    (h : unsigned length depth cs = .ok (x, rest)) : Consumes .factor depth cs rest := by
  unfold unsigned at h
  split at h
  · cases h
  · rename_i inner more
    obtain ⟨⟨y, tail⟩, hread, h⟩ := exists_of_bind_eq_ok h
    obtain ⟨last, hclose, h⟩ := exists_of_bind_eq_ok h
    cases h
    have hinner := expression_consumes (hf inner rfl) hread
    exact hinner.group (skipBlank_of_closeParen hclose)
  · exact number_consumes h

theorem takesFactors_of_inner {length depth : Nat}
    (hf : ∀ inner, depth = inner + 1 → TakesFactors (factor length inner) inner) :
    TakesFactors (factor length depth) depth := by
  intro cs rest x h
  rw [factor_eq] at h
  cases hread : unsigned length depth (takeSigns cs).2 with
  | error fault =>
    rw [hread] at h
    cases h
  | ok read =>
    rw [hread] at h
    cases h
    exact (unsigned_consumes hf hread).signs

/-- Induction on the parentheses that may still open: a group leaves one of them less to the
expression inside it. -/
theorem takesFactors_factor (length depth : Nat) : TakesFactors (factor length depth) depth := by
  induction depth with
  | zero => exact takesFactors_of_inner fun inner hinner => nomatch hinner
  | succ depth ih =>
    apply takesFactors_of_inner
    intro inner hinner
    cases hinner
    exact ih

theorem derives_of_evaluateWhole {cs : List Char} {x : Scalar} (htrimmed : Text.Trimmed cs)
    (h : evaluateWhole cs = .ok x) : Derives IsNumberOrPoint .sum maxDepth cs := by
  obtain ⟨⟨y, rest⟩, hread, h⟩ := exists_of_bind_eq_ok h
  have hconsumes := (expression_consumes (takesFactors_factor _ _) hread).skip
  have hend : skipBlank rest = [] := by
    dsimp only at h
    split at h
    · assumption
    · cases h
  rw [hend] at hconsumes
  obtain ⟨before, text, after, hbefore, htext, hafter, rfl⟩ := hconsumes
  rw [List.append_nil] at htrimmed ⊢
  -- A trimmed text has no white space around what was taken from it.
  have hnoBefore : before = [] := by
    cases before with
    | nil => rfl
    | cons b before =>
      have hb := hbefore b List.mem_cons_self
      rw [htrimmed.head_not_blank] at hb
      cases hb
  have hnoAfter : after = [] := by
    rcases List.eq_nil_or_concat' after with hnil | ⟨start, b, rfl⟩
    · exact hnil
    · have hb := hafter b (List.mem_append_right start List.mem_cons_self)
      rw [← List.append_assoc] at htrimmed
      rw [htrimmed.last_not_blank] at hb
      cases hb
  rw [hnoBefore, hnoAfter, List.nil_append, List.append_nil]
  exact htext

/-! ### Points that stand alone -/

/-- Whether one of the runs of digits and points is a point alone. -/
def HasLonePoint (cs : List Char) : Prop :=
  ['.'] ∈ Text.splitBy (fun c => !isNumeric c) cs

instance (cs : List Char) : Decidable (HasLonePoint cs) :=
  inferInstanceAs (Decidable (['.'] ∈ Text.splitBy (fun c => !isNumeric c) cs))

theorem not_hasLonePoint_nil : ¬ HasLonePoint [] := by
  decide

theorem hasLonePoint_append_cons {sep : Char} (hsep : isNumeric sep = false)
    (front rest : List Char) :
    HasLonePoint (front ++ sep :: rest) ↔ HasLonePoint front ∨ HasLonePoint rest := by
  have hcut : (!isNumeric sep) = true := by rw [hsep]; rfl
  rw [HasLonePoint, Text.splitBy_append_cons hcut, List.mem_append]
  rfl

theorem hasLonePoint_cons {sep : Char} (hsep : isNumeric sep = false) (rest : List Char) :
    HasLonePoint (sep :: rest) ↔ HasLonePoint rest := by
  have happend := hasLonePoint_append_cons hsep [] rest
  rw [List.nil_append] at happend
  rw [happend, or_iff_right not_hasLonePoint_nil]

theorem hasLonePoint_gap {gap : List Char} (hgap : Padding gap) (rest : List Char) :
    HasLonePoint (gap ++ rest) ↔ HasLonePoint rest := by
  induction gap with
  | nil => rfl
  | cons b gap ih =>
    obtain ⟨hb, hgap⟩ := List.forall_mem_cons.mp hgap
    rw [List.cons_append, hasLonePoint_cons (not_numeric_of_isBlank hb), ih hgap]

theorem hasLonePoint_append {rest : List Char} (hrest : Stops isNumeric rest)
    (front : List Char) :
    HasLonePoint (front ++ rest) ↔ HasLonePoint front ∨ HasLonePoint rest := by
  cases rest with
  | nil => rw [List.append_nil, or_iff_left not_hasLonePoint_nil]
  | cons c rest =>
    have hc := stops_cons.mp hrest
    rw [hasLonePoint_append_cons hc, hasLonePoint_cons hc]

theorem hasLonePoint_padded {before after : List Char} (hbefore : Padding before)
    (hafter : Padding after) (text : List Char) :
    HasLonePoint (before ++ text ++ after) ↔ HasLonePoint text := by
  have hstops : Stops isNumeric after := by
    cases after with
    | nil => exact stops_nil _
    | cons b after => exact stops_cons.mpr (not_numeric_of_isBlank (hafter b List.mem_cons_self))
  have hnone : HasLonePoint after ↔ HasLonePoint [] := by
    have hgap := hasLonePoint_gap hafter []
    rwa [List.append_nil] at hgap
  rw [List.append_assoc, hasLonePoint_gap hbefore, hasLonePoint_append hstops, hnone,
    or_iff_left not_hasLonePoint_nil]

theorem hasLonePoint_operation {op : Operator} {before after : List Char} (hbefore : Padding before)
    (hafter : Padding after) (left right : List Char) :
    HasLonePoint (left ++ before ++ op.symbol :: (after ++ right)) ↔
      HasLonePoint left ∨ HasLonePoint right := by
  have hsymbol : isNumeric op.symbol = false := by
    cases op <;> decide
  have hleft := hasLonePoint_padded padding_nil hbefore left
  rw [List.nil_append] at hleft
  rw [hasLonePoint_append_cons hsymbol, hleft, hasLonePoint_gap hafter]

theorem hasLonePoint_signed {sign : Char} (hsign : sign = '-' ∨ sign = '+') {gap : List Char}
    (hgap : Padding gap) (text : List Char) :
    HasLonePoint (sign :: (gap ++ text)) ↔ HasLonePoint text := by
  have hnumeric : isNumeric sign = false := by
    rcases hsign with rfl | rfl <;> decide
  rw [hasLonePoint_cons hnumeric, hasLonePoint_gap hgap]

theorem hasLonePoint_group {before after : List Char} (hbefore : Padding before)
    (hafter : Padding after) (text : List Char) :
    HasLonePoint ('(' :: (before ++ text ++ after ++ [')'])) ↔ HasLonePoint text := by
  rw [hasLonePoint_cons (by decide), hasLonePoint_append_cons (by decide),
    hasLonePoint_padded hbefore hafter, or_iff_left not_hasLonePoint_nil]

theorem IsNumberOrPoint.hasLonePoint_iff {text : List Char} (h : IsNumberOrPoint text) :
    HasLonePoint text ↔ text = ['.'] := by
  have hpieces : Text.splitBy (fun c => !isNumeric c) text = [text] :=
    Text.splitBy_of_forall fun c hc => by simp [h.numeric c hc]
  rw [HasLonePoint, hpieces, List.mem_singleton]
  exact eq_comm

theorem IsNumber.ne_point {text : List Char} (h : IsNumber text) : text ≠ ['.'] := by
  rintro rfl
  obtain ⟨c, hc, hdigit⟩ := h.exists_digit
  rw [List.mem_singleton.mp hc] at hdigit
  revert hdigit
  decide

/-- The texts of the grammar are those of the wider grammar in which no point stands alone. -/
theorem derives_isNumber_iff {level : Level} {depth : Nat} {text : List Char} :
    Derives IsNumber level depth text ↔
      Derives IsNumberOrPoint level depth text ∧ ¬ HasLonePoint text := by
  constructor
  · intro h
    induction h with
    | number h =>
      have hwide : IsNumberOrPoint _ := Or.inr h
      exact ⟨.number hwide, fun hpoint => h.ne_point (hwide.hasLonePoint_iff.mp hpoint)⟩
    | signed hsign hgap _ ih =>
      rw [hasLonePoint_signed hsign hgap]
      exact ⟨.signed hsign hgap ih.1, ih.2⟩
    | group hbefore _ hafter ih =>
      rw [hasLonePoint_group hbefore hafter]
      exact ⟨.group hbefore ih.1 hafter, ih.2⟩
    | operand _ ih => exact ⟨.operand ih.1, ih.2⟩
    | summand _ ih => exact ⟨.summand ih.1, ih.2⟩
    | operation _ hbefore hafter _ iha ihb =>
      rw [hasLonePoint_operation hbefore hafter]
      exact ⟨.operation iha.1 hbefore hafter ihb.1, not_or.mpr ⟨iha.2, ihb.2⟩⟩
  · intro h
    obtain ⟨h, hnone⟩ := h
    induction h with
    | number h =>
      exact .number (h.resolve_left fun hpoint => hnone (h.hasLonePoint_iff.mpr hpoint))
    | signed hsign hgap _ ih =>
      rw [hasLonePoint_signed hsign hgap] at hnone
      exact .signed hsign hgap (ih hnone)
    | group hbefore _ hafter ih =>
      rw [hasLonePoint_group hbefore hafter] at hnone
      exact .group hbefore (ih hnone) hafter
    | operand _ ih => exact .operand (ih hnone)
    | summand _ ih => exact .summand (ih hnone)
    | operation _ hbefore hafter _ iha ihb =>
      rw [hasLonePoint_operation hbefore hafter, not_or] at hnone
      exact .operation (iha hnone.1) hbefore hafter (ihb hnone.2)

/-! ### What the evaluator accepts -/

/-- Whether the evaluator accepts only the texts of the grammar, of at most 500 bytes, and all of
them but for divisions by zero: the grammar with a class of numbers, on one input. -/
def KeepsGrammar (number : List Char → Prop) (s : String) : Prop :=
  ((∃ x, evaluate s = .ok x) → Text.byteLength (Text.trim s.toList) ≤ maxLength ∧
    Derives number .sum maxDepth (Text.trim s.toList)) ∧
  (Text.byteLength (Text.trim s.toList) ≤ maxLength →
    Derives number .sum maxDepth (Text.trim s.toList) →
    (∃ x, evaluate s = .ok x) ∨
      evaluate s = .error ⟨String.ofList (Text.trim s.toList), .divisionByZero⟩)

section Evaluating

variable {s : String} {x : Scalar}

theorem byteLength_le_of_evaluate (hallowed : ∀ c ∈ s.toList, isAllowed c = true)
    (h : evaluate s = .ok x) : Text.byteLength (Text.trim s.toList) ≤ maxLength := by
  by_contra hlong
  have hrejected : s.toList.filter (fun c => !isAllowed c) = [] :=
    List.filter_eq_nil_iff.mpr fun c hc => by simp [hallowed c hc]
  rw [evaluate, hrejected] at h
  simp only [List.isEmpty_nil, Bool.not_true, Bool.false_eq_true, if_false,
    if_pos (Nat.not_le.mp hlong)] at h
  cases h

theorem derives_of_evaluate (hallowed : ∀ c ∈ s.toList, isAllowed c = true)
    (hne : Text.trim s.toList ≠ []) (h : evaluate s = .ok x) :
    Derives IsNumberOrPoint .sum maxDepth (Text.trim s.toList) := by
  rw [evaluate_eq hallowed hne (byteLength_le_of_evaluate hallowed h)] at h
  cases hwhole : evaluateWhole (Text.trim s.toList) with
  | error fault =>
    rw [hwhole] at h
    cases h
  | ok y => exact derives_of_evaluateWhole (Text.trimmed_trim s.toList) hwhole

theorem evaluate_of_derives (hallowed : ∀ c ∈ s.toList, isAllowed c = true)
    (hne : Text.trim s.toList ≠ []) (hlength : Text.byteLength (Text.trim s.toList) ≤ maxLength)
    (h : Derives IsNumberOrPoint .sum maxDepth (Text.trim s.toList)) :
    (∃ x, evaluate s = .ok x) ∨
      evaluate s = .error ⟨String.ofList (Text.trim s.toList), .divisionByZero⟩ := by
  obtain ⟨outcome, hreads, honly⟩ := h.exists_reads
  rw [evaluate_eq hallowed hne hlength, hreads.evaluateWhole_eq]
  cases outcome with
  | ok x => exact Or.inl ⟨x, rfl⟩
  | error fault =>
    rw [honly fault rfl]
    exact Or.inr rfl

end Evaluating

/-- On every input that is not blank the evaluator keeps the grammar whose numbers include a lone
point. It keeps the grammar whose numbers have a digit unless it accepts a lone point. -/
theorem keepsGrammar_iff {s : String} (hallowed : ∀ c ∈ s.toList, isAllowed c = true)
    (hne : Text.trim s.toList ≠ []) :
    KeepsGrammar IsNumberOrPoint s ∧
      (KeepsGrammar IsNumber s ↔ ((∃ x, evaluate s = .ok x) → ¬ HasLonePoint s.toList)) := by
  obtain ⟨before, after, hbefore, hafter, hpadded⟩ := Text.exists_padding_trim s.toList
  have hpoint : HasLonePoint s.toList ↔ HasLonePoint (Text.trim s.toList) := by
    conv_lhs => rw [hpadded]
    exact hasLonePoint_padded hbefore hafter _
  refine ⟨⟨fun hok => ?_, evaluate_of_derives hallowed hne⟩, ⟨fun hkeeps hok => ?_,
    fun hnone => ⟨fun hok => ?_, fun hlength h => ?_⟩⟩⟩
  · obtain ⟨x, hx⟩ := hok
    exact ⟨byteLength_le_of_evaluate hallowed hx, derives_of_evaluate hallowed hne hx⟩
  · rw [hpoint]
    exact (derives_isNumber_iff.mp (hkeeps.1 hok).2).2
  · have hlone := hpoint.not.mp (hnone hok)
    obtain ⟨x, hx⟩ := hok
    exact ⟨byteLength_le_of_evaluate hallowed hx,
      derives_isNumber_iff.mpr ⟨derives_of_evaluate hallowed hne hx, hlone⟩⟩
  · exact evaluate_of_derives hallowed hne hlength (derives_isNumber_iff.mp h).1

theorem derives_quotient :
    Derives IsNumber .sum maxDepth "( 1.5 - .5 ) / +2.".toList := by
  have hleft : Derives IsNumber .sum 9 "1.5".toList :=
    .summand (.operand (.number ⟨List.all_eq_true.mp (by decide), by decide, '1', by decide⟩))
  have hright : Derives IsNumber .term 9 ".5".toList :=
    .operand (.number ⟨List.all_eq_true.mp (by decide), by decide, '5', by decide⟩)
  have hblank : Padding [' '] := by decide
  have hsum : Derives IsNumber .sum 9 "1.5 - .5".toList :=
    @Derives.operation IsNumber 9 .subtract _ [' '] [' '] _ hleft hblank hblank hright
  have hgroup : Derives IsNumber .term maxDepth "( 1.5 - .5 )".toList :=
    .operand (@Derives.group IsNumber 9 [' '] _ [' '] hblank hsum hblank)
  have hnumber : Derives IsNumber .factor maxDepth "2.".toList :=
    .number ⟨List.all_eq_true.mp (by decide), by decide, '2', by decide⟩
  have hdivisor : Derives IsNumber .factor maxDepth "+2.".toList :=
    @Derives.signed IsNumber maxDepth '+' [] _ (Or.inr rfl) padding_nil hnumber
  exact .summand (@Derives.operation IsNumber maxDepth .divide _ [' '] [' '] _ hgroup hblank
    hblank hdivisor)

/-- Points beside digits are no lone points. -/
theorem keepsGrammar_quotient :
    (∀ c ∈ "( 1.5 - .5 ) / +2.".toList, isAllowed c = true) ∧
      Text.trim "( 1.5 - .5 ) / +2.".toList = "( 1.5 - .5 ) / +2.".toList ∧
      Derives IsNumber .sum maxDepth "( 1.5 - .5 ) / +2.".toList ∧
      KeepsGrammar IsNumber "( 1.5 - .5 ) / +2." := by
  have hallowed : ∀ c ∈ "( 1.5 - .5 ) / +2.".toList, isAllowed c = true :=
    List.all_eq_true.mp (by decide)
  have hlone : ¬ HasLonePoint "( 1.5 - .5 ) / +2.".toList := by decide
  exact ⟨hallowed, by decide, derives_quotient,
    (keepsGrammar_iff hallowed (by decide)).2.mpr fun _ => hlone⟩

/-- A point alone is accepted, and no text of the grammar. -/
theorem not_keepsGrammar_point :
    (∀ c ∈ ".".toList, isAllowed c = true) ∧ Text.trim ".".toList = ".".toList ∧
      (∃ x, evaluate "." = .ok x) ∧ ¬ Derives IsNumber .sum maxDepth ".".toList ∧
      ¬ KeepsGrammar IsNumber "." := by
  have hallowed : ∀ c ∈ ".".toList, isAllowed c = true := List.all_eq_true.mp (by decide)
  obtain ⟨x, hreads⟩ := @reads_isNumberOrPoint maxDepth ".".toList (Or.inl rfl)
  have heval : evaluate "." = .ok x := by
    rw [evaluate_eq hallowed (by decide) (by decide)]
    have hwhole := hreads.term.sum.evaluateWhole_eq
    have htrim : Text.trim ".".toList = ".".toList := by decide
    rw [htrim, hwhole]
    rfl
  have hderives : ¬ Derives IsNumber .sum maxDepth ".".toList := fun h =>
    (derives_isNumber_iff.mp h).2 (by decide)
  exact ⟨hallowed, by decide, ⟨x, heval⟩, hderives, fun hkeeps => hderives (hkeeps.1 ⟨x, heval⟩).2⟩

end Placeholder.Arithmetic
