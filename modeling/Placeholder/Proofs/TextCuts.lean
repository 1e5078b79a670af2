import Mathlib
import Placeholder.Formatter.Texts

/-!
# Cuts of texts

A cut takes one block out of a text. Its ends are positions in the text whatever is asked for: a
negative start or count is counted from the end of the text, and what lies beyond an end of the text
is moved to this end. The ends are reckoned in words of 64 bits, which are wide enough as long as they
hold the length of the text and its sum with the count. Two cuts at the same position put the text
together again.
-/

namespace Placeholder

namespace Text

def clamp (low high n : Int) : Int :=
  max low (min n high)

/-- Where the block of a cut begins. -/
def cutFrom (length : Nat) (start : Int) : Int :=
  clamp 0 length (if start < 0 then length + start else start)

/-- Where the block of a cut ends that begins at `first`. -/
def cutTo (length : Nat) (first : Int) (count : Option Int) : Int :=
  clamp first length
    (match count with
    | none => length
    | some n => if n < 0 then length + n else first + n)

/-- A block of a text as it stands there, with the ends that a cut asks for. -/
def IsCut (cs : List Char) (start : Int) (count : Option Int) (block : List Char) : Prop :=
  ∃ front back, cs = front ++ block ++ back ∧
    (front.length : Int) = cutFrom cs.length start ∧
    (front.length + block.length : Int) = cutTo cs.length front.length count

def FitsWord (n : Int) : Prop :=
  -2 ^ 63 ≤ n ∧ n < 2 ^ 63

/-! ### Words of 64 bits -/

theorem negative_iff {n : Int64} : n < 0 ↔ n.toInt < 0 := by
  rw [Int64.lt_iff_toInt_lt, Int64.toInt_zero]

theorem toInt_max (a b : Int64) : (max a b).toInt = max a.toInt b.toInt := by
  change (if a ≤ b then b else a).toInt = _
  split_ifs with h
  · rw [max_eq_right (Int64.le_iff_toInt_le.mp h)]
  · rw [max_eq_left (le_of_not_ge (mt Int64.le_iff_toInt_le.mpr h))]

theorem toInt_min (a b : Int64) : (min a b).toInt = min a.toInt b.toInt := by
  change (if a ≤ b then a else b).toInt = _
  split_ifs with h
  · rw [min_eq_left (Int64.le_iff_toInt_le.mp h)]
  · rw [min_eq_right (le_of_not_ge (mt Int64.le_iff_toInt_le.mpr h))]

theorem toInt_add_of_fits {a b : Int64} (h : FitsWord (a.toInt + b.toInt)) :
    (a + b).toInt = a.toInt + b.toInt := by
  obtain ⟨hlow, hhigh⟩ := h
  rw [Int64.toInt_add]
  exact Int.bmod_eq_of_le (by omega) (by omega)

section

variable {cs block : List Char} {length start : Int64} {count : Option Int64}

/-! ### The ends -/

theorem toInt_sliceStart (hlength : length.toInt = cs.length) (start : Int64) :
    (sliceStart length start).toInt = cutFrom cs.length start.toInt := by
  have hword := length.toInt_lt
  have hleast := start.le_toInt
  simp only [sliceStart, cutFrom, clamp, negative_iff]
  split_ifs with hstart
  · have hfits : FitsWord (length.toInt + start.toInt) := ⟨by omega, by omega⟩
    rw [toInt_max, toInt_add_of_fits hfits, Int64.toInt_zero]
    omega
  · rw [toInt_min]
    omega

theorem toInt_sliceEnd (hlength : length.toInt = cs.length) {first : Int64}
    (hfirst : 0 ≤ first.toInt ∧ first.toInt ≤ length.toInt)
    (hcount : ∀ n ∈ count, first.toInt + n.toInt < 2 ^ 63) :
    (sliceEnd length first count).toInt =
      cutTo cs.length first.toInt (count.map Int64.toInt) := by
  cases count with
  | none =>
    simp only [sliceEnd, cutTo, clamp, Option.map_none]
    omega
  | some n =>
    have hhigh := hcount n rfl
    have hleast := n.le_toInt
    have hword := length.toInt_lt
    simp only [sliceEnd, cutTo, clamp, Option.map_some, negative_iff]
    split_ifs with hn
    · have hfits : FitsWord (length.toInt + n.toInt) := ⟨by omega, by omega⟩
      rw [toInt_max, toInt_add_of_fits hfits]
      omega
    · have hfits : FitsWord (first.toInt + n.toInt) := ⟨by omega, by omega⟩
      rw [toInt_min, toInt_add_of_fits hfits]
      omega

theorem cutFrom_bounds (length : Nat) (start : Int) :
    0 ≤ cutFrom length start ∧ cutFrom length start ≤ length := by
  unfold cutFrom clamp
  omega

theorem cutTo_bounds {length : Nat} {first : Int} (hfirst : first ≤ length) (count : Option Int) :
    first ≤ cutTo length first count ∧ cutTo length first count ≤ length := by
  unfold cutTo clamp
  omega

/-! ### The block -/

/-- A cut takes the characters between its two ends, unless the second one is too far for a word. -/
theorem slice_eq (hlength : cs.length < 2 ^ 63) (start : Int64) (count : Option Int64)
    (hcount : ∀ n ∈ count, cutFrom cs.length start.toInt + n.toInt < 2 ^ 63) :
    ∃ first last : Nat, first ≤ last ∧ last ≤ cs.length ∧
      (first : Int) = cutFrom cs.length start.toInt ∧
      (last : Int) = cutTo cs.length first (count.map Int64.toInt) ∧
      slice cs start count = (cs.take last).drop first := by
  have hword : (Int64.ofNat cs.length).toInt = cs.length := Int64.toInt_ofNat_of_lt hlength
  have hfrom := toInt_sliceStart hword start
  obtain ⟨hlow, hhigh⟩ := cutFrom_bounds cs.length start.toInt
  set first := sliceStart (Int64.ofNat cs.length) start with hfirst
  rw [← hfrom] at hcount
  have hto := toInt_sliceEnd hword ⟨by omega, by omega⟩ hcount
  obtain ⟨hle, hbound⟩ :=
    cutTo_bounds (show first.toInt ≤ cs.length by omega) (count.map Int64.toInt)
  set last := sliceEnd (Int64.ofNat cs.length) first count with hlast
  have hnat : (first.toNatClampNeg : Int) = first.toInt := by
    rw [← Int64.toNat_toInt]
    omega
  have hnat' : (last.toNatClampNeg : Int) = last.toInt := by
    rw [← Int64.toNat_toInt]
    omega
  refine ⟨first.toNatClampNeg, last.toNatClampNeg, by omega, by omega, by omega, ?_, ?_⟩
  · rw [hnat, hnat', hto]
  simp only [slice, ← hfirst, ← hlast]
  split_ifs with hempty
  · rw [Int64.le_iff_toInt_le] at hempty
    rw [List.drop_eq_nil_of_le]
    rw [List.length_take]
    omega
  · rfl

theorem isCut_of_ends {first last : Nat} {start : Int} {count : Option Int} (hle : first ≤ last)
    (hlast : last ≤ cs.length) (hfrom : (first : Int) = cutFrom cs.length start)
    (hto : (last : Int) = cutTo cs.length first count) :
    IsCut cs start count ((cs.take last).drop first) := by
  have hfront : (cs.take first).length = first := List.length_take_of_le (hle.trans hlast)
  have hlength : ((cs.take last).drop first).length = last - first := by
    rw [List.length_drop, List.length_take_of_le hlast]
  refine ⟨cs.take first, cs.drop last, ?_, ?_, ?_⟩
  · have htake := List.take_append_drop first (cs.take last)
    rw [List.take_take, min_eq_left hle] at htake
    rw [htake, List.take_append_drop]
  · rw [hfront, hfrom]
  · rw [hfront, hlength, ← hto]
    omega

theorem IsCut.unique {start : Int} {count : Option Int} {block' : List Char}
    (h : IsCut cs start count block) (h' : IsCut cs start count block') : block = block' := by
  obtain ⟨front, back, hcs, hfront, hblock⟩ := h
  obtain ⟨front', back', hcs', hfront', hblock'⟩ := h'
  have hfronts : front.length = front'.length := by omega
  rw [hfronts] at hblock
  have hblocks : block.length = block'.length := by omega
  have hsame : front ++ (block ++ back) = front' ++ (block' ++ back') := by
    rw [← List.append_assoc, ← List.append_assoc, ← hcs, ← hcs']
  obtain ⟨-, hrest⟩ := List.append_inj hsame hfronts
  exact (List.append_inj hrest hblocks).1

/-- A count whose sum with the position is too large for a word cuts out nothing. -/
example : slice "abc".toList 1 (some Int64.maxValue) = [] := by decide

/-- What is cut out at the front and what is cut out from there on are the whole text. -/
theorem slice_append_slice (hlength : cs.length < 2 ^ 63) (n : Int64) :
    slice cs 0 (some n) ++ slice cs n none = cs := by
  have hzero : cutFrom cs.length (0 : Int64).toInt = 0 := by
    simp [cutFrom, clamp]
  have hword := n.toInt_lt
  obtain ⟨first, last, -, -, hfirst, hlast, hfront⟩ :=
    slice_eq hlength 0 (some n) (fun m hm => by cases hm; omega)
  obtain ⟨first', last', hle', hbound', hfirst', hlast', hback⟩ :=
    slice_eq hlength n none (fun m hm => by cases hm)
  rw [hzero] at hfirst
  obtain rfl : first = 0 := by omega
  have hsame : last = first' := by
    simp only [cutTo, cutFrom, clamp, Option.map_some] at hlast hfirst'
    split_ifs at hlast hfirst' <;> omega
  have hend : last' = cs.length := by
    simp only [cutTo, clamp, Option.map_none] at hlast'
    omega
  rw [hfront, hback, hsame, hend, List.drop_zero, List.take_length, List.take_append_drop]

end

end Text

open Text (IsCut FitsWord cutFrom cutTo)

namespace Formatter

theorem format_substr_eq_iff {v : Value} {args : List Value} {block : List Char} :
    substr.format v args = .ok (.string (String.ofList block)) ↔
      Text.slice v.plainText.toList (intArgument args 0 0) (intArgument? args 1) = block := by
  change Except.ok (Value.string (String.ofList _)) = _ ↔ _
  rw [Except.ok.injEq, Value.string.injEq, String.ofList_inj]

/-- Whenever words of 64 bits hold the length of the text and its sum with the count, the formatter
cuts out the block between the ends that its arguments ask for, and these are positions in the text.
The texts before and behind a position are the whole text. -/
theorem substr_cuts (v : Value) (hlength : FitsWord v.plainText.toList.length) :
    (∀ args, (∀ n ∈ intArgument? args 1, FitsWord (v.plainText.toList.length + n.toInt)) →
      (∀ block, substr.format v args = .ok (.string (String.ofList block)) ↔
        IsCut v.plainText.toList (intArgument args 0 0).toInt
          ((intArgument? args 1).map Int64.toInt) block) ∧
      ∃ first last : Nat, first ≤ last ∧ last ≤ v.plainText.toList.length ∧
        (first : Int) = cutFrom v.plainText.toList.length (intArgument args 0 0).toInt ∧
        (last : Int) = cutTo v.plainText.toList.length first
          ((intArgument? args 1).map Int64.toInt) ∧
        substr.format v args =
          .ok (.string (String.ofList ((v.plainText.toList.take last).drop first)))) ∧
      ∀ n : Int64, ∃ front back, substr.format v [.int 0, .int n] = .ok (.string front) ∧
        substr.format v [.int n] = .ok (.string back) ∧ front ++ back = v.plainText := by
  have hword : v.plainText.toList.length < 2 ^ 63 := by
    have hhigh := hlength.2
    omega
  refine ⟨fun args hcount => ?_, fun n => ?_⟩
  · have hends : ∀ n ∈ intArgument? args 1,
        cutFrom v.plainText.toList.length (intArgument args 0 0).toInt + n.toInt < 2 ^ 63 := by
      intro n hn
      have hbound := (Text.cutFrom_bounds v.plainText.toList.length
        (intArgument args 0 0).toInt).2
      have hhigh := (hcount n hn).2
      omega
    obtain ⟨first, last, hle, hlast, hfrom, hto, hslice⟩ :=
      Text.slice_eq hword (intArgument args 0 0) (intArgument? args 1) hends
    have hcut := Text.isCut_of_ends hle hlast hfrom hto
    refine ⟨fun block => ?_, first, last, hle, hlast, hfrom, hto,
      format_substr_eq_iff.mpr hslice⟩
    rw [format_substr_eq_iff, hslice]
    exact ⟨fun h => h ▸ hcut, hcut.unique⟩
  · refine ⟨_, _, rfl, rfl, ?_⟩
    rw [← String.ofList_append]
    exact (congrArg String.ofList (Text.slice_append_slice hword n)).trans String.ofList_toList

theorem substr_cuts_greeting :
    FitsWord (Value.string "Héllo wörld").plainText.toList.length ∧
      (∀ n ∈ intArgument? [.int (-9), .int (-2)] 1,
        FitsWord ((Value.string "Héllo wörld").plainText.toList.length + n.toInt)) ∧
      substr.format (.string "Héllo wörld") [.int (-9), .int (-2)] = .ok (.string "llo wör") := by
  have hlength : FitsWord (Value.string "Héllo wörld").plainText.toList.length :=
    ⟨by decide, by decide⟩
  have hcount : ∀ n ∈ intArgument? [.int (-9), .int (-2)] 1,
      FitsWord ((Value.string "Héllo wörld").plainText.toList.length + n.toInt) := by
    intro n hn
    obtain rfl : -2 = n := Option.some.inj hn
    exact ⟨by decide, by decide⟩
  obtain ⟨-, first, last, -, -, hfirst, hlast, hformat⟩ :=
    (substr_cuts (.string "Héllo wörld") hlength).1 [.int (-9), .int (-2)] hcount
  have hfrom : (first : Int) = 2 := hfirst
  obtain rfl : first = 2 := by omega
  have hto : (last : Int) = 9 := hlast
  obtain rfl : last = 9 := by omega
  exact ⟨hlength, hcount, hformat⟩

end Formatter

end Placeholder
