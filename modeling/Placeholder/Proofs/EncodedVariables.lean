import Mathlib
import Placeholder.CommandLine
import Placeholder.Proofs.EntryKeys
import Placeholder.Proofs.ExactArithmetic
import Placeholder.Proofs.JsonTexts
import Placeholder.Proofs.Searching
import Placeholder.Proofs.Trimming

/-!
# Variables with encoded values

A value without floats, date-times and host objects is the value of its JSON text. As a variable on
the command line it comes back as it is, up to the depth that the reader takes; what is nested
deeper comes back as its text.
-/

namespace Placeholder

namespace Value

/-- A value whose JSON text tells all of it: no floats, no date-times and no host objects, and no
object with two entries under one key. -/
inductive Encodable : Value → Prop
  | null : Encodable null
  | bool (b : Bool) : Encodable (bool b)
  | int (n : Int64) : Encodable (int n)
  | string (s : String) : Encodable (string s)
  | array {items : List Value} (h : ∀ v ∈ items, Encodable v) : Encodable (array items)
  | object {entries : Entries Value} (hkeys : (Entries.keys entries).Nodup)
      (h : ∀ e ∈ entries, Encodable e.2) : Encodable (object entries)

mutual

/-- How many arrays and objects stand one in another at most. -/
def nesting : Value → Nat
  | array items => itemsNesting items + 1
  | object entries => entriesNesting entries + 1
  | _ => 0

def itemsNesting : List Value → Nat
  | [] => 0
  | v :: vs => max (nesting v) (itemsNesting vs)

def entriesNesting : List (String × Value) → Nat
  | [] => 0
  | (_, v) :: rest => max (nesting v) (entriesNesting rest)

end

/-! ### Trees -/

theorem itemsToJson_eq_map (items : List Value) : itemsToJson items = items.map toJson := by
  induction items with
  | nil => rfl
  | cons v rest ih => rw [itemsToJson, ih, List.map_cons]

theorem itemsOfJson_eq_map (items : List Json) : itemsOfJson items = items.map ofJson := by
  induction items with
  | nil => rfl
  | cons j rest ih => rw [itemsOfJson, ih, List.map_cons]

theorem entriesToJson_eq_map (entries : Entries Value) :
    entriesToJson entries = entries.map fun e => (e.1, e.2.toJson) := by
  induction entries with
  | nil => rfl
  | cons e rest ih => rw [entriesToJson, ih, List.map_cons]

theorem entriesOfJson_eq_map (members : List (String × Json)) :
    entriesOfJson members = members.map fun e => (e.1, ofJson e.2) := by
  induction members with
  | nil => rfl
  | cons e rest ih => rw [entriesOfJson, ih, List.map_cons]

theorem Encodable.lossless {v : Value} (h : v.Encodable) : v.toJson.Lossless := by
  induction h with
  | null => exact .null
  | bool b => exact .bool b
  | int n => exact .int n
  | string s => exact .string s
  | array _ ih =>
    rw [toJson, itemsToJson_eq_map]
    exact .array (List.forall_mem_map.mpr ih)
  | object _ _ ih =>
    rw [toJson, entriesToJson_eq_map]
    exact .object (List.forall_mem_map.mpr ih)

/-- No part of the value is lost in its tree: integers have 64 bits and the keys of an object keep
their places. -/
theorem Encodable.ofJson_toJson {v : Value} (h : v.Encodable) : ofJson v.toJson = v := by
  induction h with
  | null => rfl
  | bool b => rfl
  | int n =>
    have hexact : exactInt64 n.toInt = some n := (exactInt64_eq_some_iff _ _).mpr rfl
    rw [toJson, ofJson, hexact]
  | string s => rfl
  | @array items _ ih =>
    have hitems : items.map (ofJson ∘ toJson) = items :=
      (List.map_congr_left ih).trans (List.map_id' items)
    rw [toJson, ofJson, itemsToJson_eq_map, itemsOfJson_eq_map, List.map_map, hitems]
  | @object entries hkeys _ ih =>
    have hentries : (entries.map fun e => (e.1, e.2.toJson)).map (fun e => (e.1, ofJson e.2)) =
        entries := by
      have hpair : ∀ e ∈ entries, (e.1, ofJson e.2.toJson) = e := fun e he => Prod.ext rfl (ih e he)
      rw [List.map_map]
      exact (List.map_congr_left hpair).trans (List.map_id' entries)
    rw [toJson, ofJson, entriesToJson_eq_map, entriesOfJson_eq_map, hentries,
      Entries.ofList_eq_self hkeys]

theorem fitsItems_itemsToJson {items : List Value} {depth : Nat}
    (h : ∀ v ∈ items, Json.fits depth v.toJson = true ↔ v.nesting ≤ depth) :
    Json.fitsItems depth (itemsToJson items) = true ↔ itemsNesting items ≤ depth := by
  induction items with
  | nil => exact iff_of_true rfl (Nat.zero_le depth)
  | cons v rest ih =>
    obtain ⟨hv, hrest⟩ := List.forall_mem_cons.mp h
    rw [itemsToJson, Json.fitsItems, Bool.and_eq_true, hv, ih hrest, itemsNesting, max_le_iff]

theorem fitsMembers_entriesToJson {entries : Entries Value} {depth : Nat}
    (h : ∀ e ∈ entries, Json.fits depth e.2.toJson = true ↔ e.2.nesting ≤ depth) :
    Json.fitsMembers depth (entriesToJson entries) = true ↔ entriesNesting entries ≤ depth := by
  induction entries with
  | nil => exact iff_of_true rfl (Nat.zero_le depth)
  | cons e rest ih =>
    obtain ⟨k, v⟩ := e
    obtain ⟨hv, hrest⟩ := List.forall_mem_cons.mp h
    rw [entriesToJson, Json.fitsMembers, Bool.and_eq_true, hv, ih hrest, entriesNesting, max_le_iff]

theorem Encodable.fits_toJson {v : Value} (h : v.Encodable) (depth : Nat) :
    Json.fits depth v.toJson = true ↔ v.nesting ≤ depth := by
  induction h generalizing depth with
  | null | bool b | int n | string s => exact iff_of_true rfl (Nat.zero_le depth)
  | array _ ih =>
    rw [toJson, nesting]
    cases depth with
    | zero => exact iff_of_false Bool.false_ne_true (Nat.not_succ_le_zero _)
    | succ depth =>
      rw [Json.fits, fitsItems_itemsToJson fun v hv => ih v hv depth, Nat.add_le_add_iff_right]
  | object _ _ ih =>
    rw [toJson, nesting]
    cases depth with
    | zero => exact iff_of_false Bool.false_ne_true (Nat.not_succ_le_zero _)
    | succ depth =>
      rw [Json.fits, fitsMembers_entriesToJson fun e he => ih e he depth, Nat.add_le_add_iff_right]

theorem Encodable.read?_encode {v : Value} (h : v.Encodable) :
    read? v.encode = if v.nesting ≤ Json.maxDepth then some v else none := by
  have hfits := h.fits_toJson Json.maxDepth
  rw [read?, Json.read?, encode, h.lossless.parse?_text, Option.filter_some]
  split_ifs with hfit hnesting hnesting
  · rw [Option.map_some, h.ofJson_toJson]
  · exact absurd (hfits.mp hfit) hnesting
  · exact absurd (hfits.mpr hnesting) hfit
  · rfl

end Value

/-! ### Variables -/

theorem readVariable_append {key : String} (hkey : '=' ∉ key.toList)
    (htrimmed : Text.Trimmed key.toList) (hne : key ≠ "") (raw : String) :
    readVariable (key ++ "=" ++ raw) = .ok (key, (Value.read? raw).getD (.string raw)) := by
  have hspec : (key ++ "=" ++ raw).toList = key.toList ++ '=' :: raw.toList := by
    rw [String.toList_append, String.toList_append, List.append_assoc]
    rfl
  have hvisible : (Text.trim key.toList).isEmpty = false := by
    rw [htrimmed, List.isEmpty_eq_false_iff]
    exact fun hnil => hne (String.toList_inj.mp hnil)
  rw [readVariable, hspec, Text.cut?_char hkey]
  simp only [hvisible, Bool.false_eq_true, if_false]
  rw [htrimmed, String.ofList_toList, String.ofList_toList]

/-- An encoded value comes back under its key as it is, and as its text where it is nested deeper
than the reader goes. -/
theorem readVariable_encode {key : String} (hkey : '=' ∉ key.toList)
    (htrimmed : Text.Trimmed key.toList) (hne : key ≠ "") {v : Value} (hv : v.Encodable) :
    readVariable (key ++ "=" ++ v.encode) =
      .ok (key, if v.nesting ≤ 127 then v else .string v.encode) := by
  rw [readVariable_append hkey htrimmed hne, hv.read?_encode, Json.maxDepth]
  split <;> rfl

/-- A value with a text that looks like a number, the least integer, and keys with quotes, a control
character and the separator, out of their order. -/
def trickyValue : Value :=
  .object [("size=", .array [.string "3", .int Int64.minValue, .null]),
    ("\"a\"", .object [("\x01\\", .bool true), ("", .array [])])]

theorem encodable_trickyValue : trickyValue.Encodable := by
  have hsize : (Value.array [.string "3", .int Int64.minValue, .null]).Encodable := by
    apply Value.Encodable.array
    simp only [List.forall_mem_cons]
    exact ⟨.string _, .int _, .null, List.forall_mem_nil _⟩
  have hquoted : (Value.object [("\x01\\", .bool true), ("", .array [])]).Encodable := by
    apply Value.Encodable.object (by decide)
    simp only [List.forall_mem_cons]
    exact ⟨.bool true, .array (List.forall_mem_nil _), List.forall_mem_nil _⟩
  apply Value.Encodable.object (by decide)
  simp only [List.forall_mem_cons]
  exact ⟨hsize, hquoted, List.forall_mem_nil _⟩

theorem readVariable_trickyValue : '=' ∉ "k".toList ∧ Text.Trimmed "k".toList ∧
    "k" ≠ "" ∧ trickyValue.Encodable ∧ trickyValue.nesting = 3 ∧
    readVariable ("k" ++ "=" ++ trickyValue.encode) = .ok ("k", trickyValue) := by
  have hkey : '=' ∉ "k".toList := by decide
  have htrimmed : Text.Trimmed "k".toList := by rfl
  have hne : "k" ≠ "" := by decide
  have hnesting : trickyValue.nesting = 3 := by decide
  have hread := readVariable_encode hkey htrimmed hne encodable_trickyValue
  rw [if_pos (by rw [hnesting]; decide)] at hread
  exact ⟨hkey, htrimmed, hne, encodable_trickyValue, hnesting, hread⟩

end Placeholder
