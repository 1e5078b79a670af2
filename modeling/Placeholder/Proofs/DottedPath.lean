import Mathlib
import Placeholder.Proofs.Searching
import Placeholder.Text.Digits

/-!
# Dotted paths

The segments of a path are joined by dots and cut at dots again. The pieces are the segments exactly
when no segment has a dot of its own; each such dot makes one more piece. A segment that is the
decimal text of an integer is read back as the position it stands for.
-/

namespace Placeholder.Text

/-! ### Joined and cut again -/

theorem length_splitOn (sep : Char) (cs : List Char) :
    (splitOn sep cs).length = cs.count sep + 1 := by
  induction cs with
  | nil => rfl
  | cons c cs ih =>
    by_cases hc : c = sep
    · subst hc
      rw [splitOn_cons_self, List.length_cons, ih, List.count_cons_self]
    · obtain ⟨piece, pieces, hsplit⟩ := exists_splitOn sep cs
      rw [hsplit, List.length_cons] at ih
      rw [splitOn_cons_of_ne hc hsplit, List.count_cons_of_ne hc, List.length_cons, ih]

theorem splitString_join_cons (segment : String) {rest : List String} (h : rest ≠ []) :
    splitString '.' (join "." (segment :: rest)) =
      splitString '.' segment ++ splitString '.' (join "." rest) := by
  obtain ⟨next, others, rfl⟩ := List.exists_cons_of_ne_nil h
  have htext : (join "." (segment :: next :: others)).toList =
      segment.toList ++ '.' :: (join "." (next :: others)).toList := by
    rw [join, String.intercalate_cons_cons, String.toList_append, String.toList_append,
      List.append_assoc]
    rfl
  rw [splitString, htext, splitOn_append_cons, List.map_append]
  rfl

theorem splitString_of_not_mem {segment : String} (h : '.' ∉ segment.toList) :
    splitString '.' segment = [segment] := by
  rw [splitString, splitOn_of_not_mem h, List.map_singleton, String.ofList_toList]

theorem length_splitString (segment : String) :
    (splitString '.' segment).length = segment.toList.count '.' + 1 := by
  rw [splitString, List.length_map, length_splitOn]

theorem splitString_ne_nil (sep : Char) (text : String) : splitString sep text ≠ [] := by
  obtain ⟨piece, pieces, hsplit⟩ := exists_splitOn sep text.toList
  rw [splitString, hsplit]
  exact List.cons_ne_nil _ _

/-- The pieces of a joined path are fewer without its first segment. -/
theorem splitString_join_ne (segment : String) {rest : List String} (h : rest ≠ []) :
    splitString '.' (join "." rest) ≠ splitString '.' (join "." (segment :: rest)) := by
  intro heq
  have hlength := congrArg List.length heq
  rw [splitString_join_cons segment h, List.length_append, length_splitString segment] at hlength
  omega

/-- Cutting a joined path gives the pieces of its segments. -/
theorem splitString_join_eq_flatMap {path : List String} (hne : path ≠ []) :
    splitString '.' (join "." path) = path.flatMap (splitString '.') := by
  induction path with
  | nil => exact absurd rfl hne
  | cons segment rest ih =>
    by_cases hrest : rest = []
    · subst hrest
      rw [List.flatMap_singleton]
      rfl
    · rw [splitString_join_cons segment hrest, ih hrest, List.flatMap_cons]

theorem flatMap_splitString {path : List String} (h : ∀ segment ∈ path, '.' ∉ segment.toList) :
    path.flatMap (splitString '.') = path := by
  induction path with
  | nil => rfl
  | cons segment rest ih =>
    obtain ⟨hsegment, hrest⟩ := List.forall_mem_cons.mp h
    rw [List.flatMap_cons, splitString_of_not_mem hsegment, ih hrest, List.singleton_append]

/-- Cutting a joined path gives back segments that have no dots. -/
theorem splitString_join {path : List String} (hne : path ≠ [])
    (h : ∀ segment ∈ path, '.' ∉ segment.toList) : splitString '.' (join "." path) = path := by
  rw [splitString_join_eq_flatMap hne, flatMap_splitString h]

theorem length_splitString_join {path : List String} (hne : path ≠ []) :
    (splitString '.' (join "." path)).length =
      path.length + (path.flatMap String.toList).count '.' := by
  induction path with
  | nil => exact absurd rfl hne
  | cons segment rest ih =>
    rw [List.flatMap_cons, List.count_append, List.length_cons]
    by_cases hrest : rest = []
    · subst hrest
      have hlength := length_splitString segment
      rw [join, String.intercalate_singleton, hlength, List.flatMap_nil, List.count_nil,
        List.length_nil]
      omega
    · rw [splitString_join_cons segment hrest, List.length_append, length_splitString, ih hrest]
      omega

/-- A joined path that is cut into as many pieces as it had segments had no dots in them. -/
theorem not_mem_of_length_splitString_join {path : List String} (hne : path ≠ [])
    (h : (splitString '.' (join "." path)).length = path.length) :
    ∀ segment ∈ path, '.' ∉ segment.toList := by
  intro segment hsegment hdot
  rw [length_splitString_join hne] at h
  have hcount : (path.flatMap String.toList).count '.' = 0 := by omega
  exact List.count_eq_zero.mp hcount (List.mem_flatMap.mpr ⟨segment, hsegment, hdot⟩)

/-! ### Integers written and read -/

theorem digitsValue_natDigits (n : Nat) : digitsValue (natDigits n) = n :=
  Nat.ofDigitChars_ten_toDigits

theorem isDigit_of_mem_natDigits {n : Nat} {c : Char} (h : c ∈ natDigits n) : c.isDigit = true :=
  Nat.isDigit_of_mem_toDigits (by decide) (by decide) h

theorem readDigits?_natDigits (n : Nat) : readDigits? (natDigits n) = some n := by
  have hne : (natDigits n).isEmpty = false :=
    List.isEmpty_eq_false_iff.mpr Nat.toDigits_ne_nil
  have hdigits : (natDigits n).all Char.isDigit = true :=
    List.all_eq_true.mpr fun _ => isDigit_of_mem_natDigits
  rw [readDigits?, hne, hdigits, digitsValue_natDigits]
  rfl

theorem readNat?_natDigits {n bound : Nat} (h : n < bound) :
    readNat? bound (natDigits n) = some n := by
  unfold readNat?
  split
  · next rest hplus =>
    have hdigit : '+'.isDigit = true := isDigit_of_mem_natDigits (hplus ▸ List.mem_cons_self)
    cases hdigit
  · simp [readDigits?_natDigits, h]

theorem readNat?_intText {n : Int} (hn : 0 ≤ n) {bound : Nat} (hbound : n < bound) :
    readNat? bound (intText n).toList = some n.toNat := by
  have habs : n.natAbs = n.toNat := by omega
  rw [intText, String.toList_ofList, intDigits, if_neg (not_lt.mpr hn), habs]
  exact readNat?_natDigits (by omega)

theorem readNat?_intText_of_neg {n : Int} (hn : n < 0) (bound : Nat) :
    readNat? bound (intText n).toList = none := by
  rw [intText, String.toList_ofList, intDigits, if_pos hn]
  rfl

end Placeholder.Text
