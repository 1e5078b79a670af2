import Mathlib
import Placeholder.Clause.Reference
import Placeholder.Proofs.EntryKeys
import Placeholder.Proofs.WrittenDeclaration

/-!
# Statements with their references filled in

A statement is filled from its start: a reference to a known name gives way to the text of the
value, any other character stays, and what has been filled in is not read again. Substitution fills
a statement in this way, and where the known names are distinct words there is no other way.
-/

namespace Placeholder.Clause

def reference (name : String) : List Char :=
  '\x7b' :: (name.toList ++ ['\x7d'])

/-- The statement with every reference to a known name replaced by the text of the value. -/
inductive Filled (values : Entries Value) : List Char → List Char → Prop where
  | nil : Filled values [] []
  | reference {name : String} {v : Value} {rest filled : List Char} : (name, v) ∈ values →
      Filled values rest filled →
      Filled values (reference name ++ rest) ((statementText v).toList ++ filled)
  | char {c : Char} {cs filled : List Char} :
      (∀ entry ∈ values, ¬ reference entry.1 <+: c :: cs) → Filled values cs filled →
      Filled values (c :: cs) (c :: filled)

/-! ### Names -/

/-- A name that a reference may have: a word of one character or more. -/
def IsName (name : String) : Prop :=
  name.toList ≠ [] ∧ ∀ c ∈ name.toList, Text.isWord c = true

instance (name : String) : Decidable (IsName name) :=
  decidable_of_iff (name.toList ≠ [] ∧ name.toList.all Text.isWord = true) (by simp [IsName])

theorem IsName.braceFree {name : String} (h : IsName name) : Template.BraceFree name.toList := by
  intro c hc
  have hword := h.2 c hc
  constructor <;>
  · rintro rfl
    revert hword
    decide

theorem reference_append (name : String) (rest : List Char) :
    reference name ++ rest = '\x7b' :: (name.toList ++ '\x7d' :: rest) := by
  simp [reference]

theorem IsName.takeReference? {name : String} (h : IsName name) (rest : List Char) :
    takeReference? (reference name ++ rest) = some (name.toList, rest) := by
  rw [reference_append]
  exact takeReference?_written h.1 h.2 rest

theorem takeReference?_eq_some {cs name rest : List Char}
    (h : takeReference? cs = some (name, rest)) :
    IsName (String.ofList name) ∧ cs = reference (String.ofList name) ++ rest := by
  obtain ⟨inner, hopen, h⟩ := Option.bind_eq_some_iff.mp h
  obtain ⟨⟨run, tail⟩, hrun, h⟩ := Option.bind_eq_some_iff.mp h
  obtain ⟨after, hclose, h⟩ := Option.bind_eq_some_iff.mp h
  cases h
  obtain ⟨hne, hword, rfl⟩ := takeRun?_eq_some hrun
  have hcs := (Text.after?_eq_some_iff _ _ _).mp hopen
  have htail := (Text.after?_eq_some_iff _ _ _).mp hclose
  rw [IsName, reference_append, String.toList_ofList]
  refine ⟨⟨hne, hword⟩, ?_⟩
  rw [hcs, htail]
  rfl

/-! ### Pieces of a statement -/

theorem length_lt_of_takeReference? {c : Char} {cs name rest : List Char}
    (h : takeReference? (c :: cs) = some (name, rest)) : rest.length ≤ cs.length := by
  obtain ⟨-, heq⟩ := takeReference?_eq_some h
  have hlen := congrArg List.length heq
  simp only [reference_append, List.length_cons, List.length_append] at hlen
  omega

/-- What follows a reference is shorter than the text, so the fuel of the search suffices. -/
theorem piecesFrom_eq_pieces (fuel : Nat) (cs : List Char) (h : cs.length ≤ fuel) :
    piecesFrom fuel cs = pieces cs := by
  have key : ∀ n fuel cs, cs.length ≤ n → n ≤ fuel → piecesFrom fuel cs = piecesFrom n cs := by
    intro n
    induction n with
    | zero =>
      intro fuel cs hn _
      obtain rfl : cs = [] := List.eq_nil_of_length_eq_zero (by omega)
      cases fuel <;> rfl
    | succ n ih =>
      intro fuel cs hn hle
      obtain ⟨fuel, rfl⟩ : ∃ k, fuel = k + 1 := ⟨fuel - 1, by omega⟩
      cases cs with
      | nil => rfl
      | cons c cs =>
        simp only [List.length_cons] at hn
        simp only [piecesFrom]
        split
        · rename_i name rest htake
          have hrest := length_lt_of_takeReference? htake
          rw [ih fuel rest (by omega) (by omega)]
        · rw [ih fuel cs (by omega) (by omega)]
  exact key cs.length fuel cs le_rfl h

theorem pieces_reference {name : String} (h : IsName name) (rest : List Char) :
    pieces (reference name ++ rest) = .reference name.toList :: pieces rest := by
  have htake := h.takeReference? rest
  rw [reference_append] at htake ⊢
  conv_lhs => rw [pieces, List.length_cons, piecesFrom, htake]
  have hrest := length_lt_of_takeReference? htake
  simp only [piecesFrom_eq_pieces _ rest hrest]

theorem pieces_cons_of_none {c : Char} {cs : List Char} (h : takeReference? (c :: cs) = none) :
    pieces (c :: cs) = .char c :: pieces cs := by
  conv_lhs => rw [pieces, List.length_cons, piecesFrom, h]
  rfl

theorem pieces_append_of_braceFree {text : List Char} (h : Template.BraceFree text)
    (rest : List Char) : pieces (text ++ rest) = text.map Piece.char ++ pieces rest := by
  induction text with
  | nil => rfl
  | cons c text ih =>
    obtain ⟨hc, htext⟩ := Template.braceFree_cons.mp h
    rw [List.cons_append, pieces_cons_of_none (takeReference?_of_ne hc.1 _), ih htext]
    rfl

/-! ### Substitution fills a statement -/

section Substitution

variable {values : Entries Value}

def fill (values : Entries Value) (cs : List Char) : List Char :=
  (pieces cs).flatMap (substitutePiece values)

theorem fill_reference {name : String} (hname : IsName name) {v : Value}
    (h : values.get? name = some v) (rest : List Char) :
    fill values (reference name ++ rest) = (statementText v).toList ++ fill values rest := by
  rw [fill, pieces_reference hname, List.flatMap_cons, substitutePiece, String.ofList_toList, h]
  rfl

/-- A character that opens no reference to a known name stays. -/
theorem fill_cons {c : Char} {cs : List Char}
    (h : ∀ entry ∈ values, ¬ reference entry.1 <+: c :: cs) :
    fill values (c :: cs) = c :: fill values cs := by
  cases htake : takeReference? (c :: cs) with
  | none =>
    rw [fill, pieces_cons_of_none htake]
    rfl
  | some found =>
    obtain ⟨name, rest⟩ := found
    obtain ⟨hname, heq⟩ := takeReference?_eq_some htake
    have hunknown : values.get? (String.ofList name) = none := by
      cases hvalue : values.get? (String.ofList name) with
      | none => rfl
      | some v => exact absurd ⟨rest, heq.symm⟩ (h _ (Entries.mem_of_get? hvalue))
    have hfree := hname.braceFree
    rw [fill, heq, pieces_reference hname]
    rw [reference_append] at heq
    obtain ⟨rfl, rfl⟩ := List.cons.inj heq
    -- Behind the opening brace the name and the closing brace stay as well.
    rw [fill, pieces_append_of_braceFree hfree,
      pieces_cons_of_none (takeReference?_of_ne (by decide) rest)]
    simp [substitutePiece, hunknown, List.flatMap_map]

section

variable (hnames : ∀ entry ∈ values, IsName entry.1) (hnodup : (Entries.keys values).Nodup)
include hnames hnodup

theorem filled_fill (cs : List Char) : Filled values cs (fill values cs) := by
  induction hn : cs.length using Nat.strongRecOn generalizing cs with
  | _ n ih =>
    cases cs with
    | nil => exact .nil
    | cons c cs =>
      rw [List.length_cons] at hn
      by_cases hopens : ∃ entry ∈ values, reference entry.1 <+: c :: cs
      · obtain ⟨⟨name, v⟩, hentry, rest, hrest⟩ := hopens
        have hlen := congrArg List.length hrest
        simp only [reference_append, List.length_cons, List.length_append] at hlen
        rw [← hrest, fill_reference (hnames _ hentry) (Entries.get?_of_mem hnodup hentry)]
        exact .reference hentry (ih rest.length (by omega) rest rfl)
      · have hno : ∀ entry ∈ values, ¬ reference entry.1 <+: c :: cs :=
          fun entry hentry hprefix => hopens ⟨entry, hentry, hprefix⟩
        rw [fill_cons hno]
        exact .char hno (ih cs.length (by omega) cs rfl)

/-- A statement can be filled in one way only, which is that of substitution. -/
theorem filled_iff {cs filled : List Char} : Filled values cs filled ↔ filled = fill values cs := by
  constructor
  · intro h
    induction h with
    | nil => rfl
    | reference hentry _ ih =>
      rw [fill_reference (hnames _ hentry) (Entries.get?_of_mem hnodup hentry), ih]
    | char hno _ ih => rw [fill_cons hno, ih]
  · rintro rfl
    exact filled_fill hnames hnodup cs

end

theorem substitute_eq_fill (statement : String) (values : Entries Value) :
    substitute statement values = String.ofList (fill values statement.toList) := rfl

end Substitution

/-! ### The names of a clause -/

theorem isName_of_takeDeclaration? {cs rest : List Char} {d : Declaration}
    (h : takeDeclaration? cs = some (d, rest)) : IsName d.name := by
  obtain ⟨⟨name, tail⟩, hname, h⟩ := Option.bind_eq_some_iff.mp h
  obtain ⟨arrow, -, h⟩ := Option.bind_eq_some_iff.mp h
  obtain ⟨⟨expression, end'⟩, -, h⟩ := Option.bind_eq_some_iff.mp h
  cases h
  exact (takeReference?_eq_some hname).1

theorem exists_takeDeclaration?_of_mem {fuel : Nat} {cs : List Char} {d : Declaration}
    (h : d ∈ readDeclarationsFrom fuel cs) :
    ∃ front rest, takeDeclaration? front = some (d, rest) := by
  induction fuel generalizing cs with
  | zero => cases h
  | succ fuel ih =>
    cases cs with
    | nil => cases h
    | cons c cs =>
      rw [readDeclarationsFrom] at h
      split at h
      · rename_i found rest htake
        rcases List.mem_cons.mp h with rfl | h
        · exact ⟨c :: cs, rest, htake⟩
        · exact ih h
      · exact ih h

theorem isName_of_mem_readDeclarationsFrom {fuel : Nat} {cs : List Char} {d : Declaration}
    (h : d ∈ readDeclarationsFrom fuel cs) : IsName d.name := by
  obtain ⟨front, rest, htake⟩ := exists_takeDeclaration?_of_mem h
  exact isName_of_takeDeclaration? htake

end Placeholder.Clause
