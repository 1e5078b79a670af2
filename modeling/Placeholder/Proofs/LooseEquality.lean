import Mathlib
import Placeholder.Clause.Requirement
import Placeholder.Proofs.EntryKeys
import Placeholder.Proofs.FloatOrder

/-!
# Equality after conversion

Which conversion is made depends on the types of both sides and on which side they stand, and an
object is compared by looking the keys of its left side up in its right side. All the same, values
whose objects do not repeat a key equal themselves, and it does not matter which side they stand on.
-/

namespace Placeholder.Value

/-- A value in which no object has two entries under one key, at any depth. -/
inductive UniquelyKeyed : Value → Prop
  | null : UniquelyKeyed null
  | bool (b : Bool) : UniquelyKeyed (bool b)
  | int (n : Int64) : UniquelyKeyed (int n)
  | float (x : Float) : UniquelyKeyed (float x)
  | string (s : String) : UniquelyKeyed (string s)
  | dateTime (t : Calendar.DateTime) : UniquelyKeyed (dateTime t)
  | host (h : HostObject Value) : UniquelyKeyed (host h)
  | array {items : List Value} (h : ∀ v ∈ items, UniquelyKeyed v) : UniquelyKeyed (array items)
  | object {entries : Entries Value} (hkeys : (Entries.keys entries).Nodup)
      (h : ∀ e ∈ entries, UniquelyKeyed e.2) : UniquelyKeyed (object entries)

mutual

/-- What is read as JSON is uniquely keyed: of repeated members one entry remains. -/
theorem uniquelyKeyed_ofJson : ∀ j : Json, (ofJson j).UniquelyKeyed
  | .null => .null
  | .bool b => .bool b
  | .int n => by
    rw [ofJson]
    split
    · exact .int _
    · exact .float _
  | .float x => .float x
  | .string s => .string s
  | .array items => .array (uniquelyKeyed_itemsOfJson items)
  | .object members =>
    .object (Entries.nodup_keys_ofList _)
      (Entries.forall_values_ofList (uniquelyKeyed_entriesOfJson members))
  | .unreadable => .null

theorem uniquelyKeyed_itemsOfJson : ∀ items : List Json, ∀ v ∈ itemsOfJson items, v.UniquelyKeyed
  | [] => List.forall_mem_nil _
  | j :: js => List.forall_mem_cons.mpr ⟨uniquelyKeyed_ofJson j, uniquelyKeyed_itemsOfJson js⟩

theorem uniquelyKeyed_entriesOfJson :
    ∀ members : List (String × Json), ∀ e ∈ entriesOfJson members, e.2.UniquelyKeyed
  | [] => List.forall_mem_nil _
  | (_, j) :: rest =>
    List.forall_mem_cons.mpr ⟨uniquelyKeyed_ofJson j, uniquelyKeyed_entriesOfJson rest⟩

end

/-! ### Numbers and texts -/

theorem sameNumber_self (v : Value) : sameNumber v v = true :=
  beq_iff_eq.mpr (Number.Scalar.compare_self v.toScalar)

theorem sameNumber_comm (v w : Value) : sameNumber v w = sameNumber w v := by
  rw [Bool.eq_iff_iff, sameNumber, sameNumber, beq_iff_eq, beq_iff_eq]
  exact Number.Scalar.compare_eq_comm

theorem textEqText_self (s : String) : textEqText s s = true := by
  rw [textEqText, sameNumber_self, beq_self_eq_true, ite_self]

theorem textEqText_comm (s t : String) : textEqText s t = textEqText t s := by
  rw [textEqText, textEqText, sameNumber_comm (string s), Bool.and_comm, Bool.beq_comm]

/-! ### Items and entries -/

theorem looseEqItems_self {items : List Value} (h : ∀ v ∈ items, looseEq v v = true) :
    looseEqItems items items = true := by
  induction items with
  | nil => rfl
  | cons v rest ih =>
    obtain ⟨hv, hrest⟩ := List.forall_mem_cons.mp h
    rw [looseEqItems, hv, ih hrest]
    rfl

theorem looseEqItems_comm {items others : List Value}
    (h : ∀ v ∈ items, ∀ w ∈ others, looseEq v w = looseEq w v) :
    looseEqItems items others = looseEqItems others items := by
  induction items generalizing others with
  | nil => cases others <;> rfl
  | cons v rest ih =>
    cases others with
    | nil => rfl
    | cons w more =>
      have hheads := h v List.mem_cons_self w List.mem_cons_self
      have htails := ih fun u hu x hx =>
        h u (List.mem_cons_of_mem v hu) x (List.mem_cons_of_mem w hx)
      rw [looseEqItems, looseEqItems, hheads, htails]

theorem looseEqEntries_iff {entries other : Entries Value} :
    looseEqEntries entries other = true ↔
      Entries.Partnered (fun v w => looseEq v w = true) entries other := by
  induction entries with
  | nil => exact iff_of_true rfl (List.forall_mem_nil _)
  | cons e rest ih =>
    obtain ⟨k, v⟩ := e
    rw [looseEqEntries, Bool.and_eq_true, ih]
    refine (and_congr_left fun _ => ?_).trans List.forall_mem_cons.symm
    cases hget : Entries.get? other k with
    | none => simp
    | some w => simp

theorem looseEq_object_self {entries : Entries Value} (hkeys : (Entries.keys entries).Nodup)
    (h : ∀ e ∈ entries, looseEq e.2 e.2 = true) :
    looseEq (object entries) (object entries) = true := by
  rw [looseEq, beq_self_eq_true, Bool.true_and, looseEqEntries_iff]
  exact fun e he => ⟨e.2, Entries.get?_of_mem hkeys he, h e he⟩

/-- An object that is found in another of its size is where the other is found. -/
theorem looseEq_object_swap {entries other : Entries Value} (hkeys : (Entries.keys entries).Nodup)
    (h : ∀ e ∈ entries, ∀ f ∈ other, looseEq e.2 f.2 = looseEq f.2 e.2)
    (hloose : looseEq (object entries) (object other) = true) :
    looseEq (object other) (object entries) = true := by
  rw [looseEq, Bool.and_eq_true, beq_iff_eq, looseEqEntries_iff] at hloose ⊢
  obtain ⟨hsize, hpartnered⟩ := hloose
  refine ⟨hsize.symm, fun f hf => ?_⟩
  obtain ⟨v, hv, hvalues⟩ := hpartnered.symm hkeys hsize f hf
  exact ⟨v, hv, (h _ (Entries.mem_of_get? hv) f hf).symm.trans hvalues⟩

/-! ### All values -/

theorem looseEq_self {v : Value} (h : v.UniquelyKeyed) : looseEq v v = true := by
  induction h with
  | null => rfl
  | bool b => exact beq_self_eq_true b
  | int n => exact sameNumber_self (int n)
  | float x => exact sameNumber_self (float x)
  | string s => exact textEqText_self s
  | dateTime t => exact beq_self_eq_true t
  | host h => exact beq_self_eq_true h.identity
  | array _ ih => exact looseEqItems_self ih
  | object hkeys _ ih => exact looseEq_object_self hkeys ih

/-- A boolean is compared with the truth of any value, on either side. -/
theorem looseEq_bool_comm (b : Bool) (v : Value) : looseEq (bool b) v = looseEq v (bool b) := by
  cases v <;> exact Bool.beq_comm

/-- By the types of both sides: a pair of different types that compares at all does so by one and
the same conversion on either side, and booleans are apart. -/
theorem looseEq_comm {v w : Value} (hv : v.UniquelyKeyed) (hw : w.UniquelyKeyed) :
    looseEq v w = looseEq w v := by
  induction hv generalizing w with
  | null =>
    cases hw with
    | bool b => exact (looseEq_bool_comm b _).symm
    | _ => rfl
  | bool b => exact looseEq_bool_comm b w
  | int m =>
    cases hw with
    | bool b => exact (looseEq_bool_comm b _).symm
    | int n => exact sameNumber_comm (int m) (int n)
    | float y => exact sameNumber_comm (int m) (float y)
    | _ => rfl
  | float x =>
    cases hw with
    | bool b => exact (looseEq_bool_comm b _).symm
    | int n => exact sameNumber_comm (float x) (int n)
    | float y => exact sameNumber_comm (float x) (float y)
    | _ => rfl
  | string s =>
    cases hw with
    | bool b => exact (looseEq_bool_comm b _).symm
    | string t => exact textEqText_comm s t
    | _ => rfl
  | dateTime t =>
    cases hw with
    | bool b => exact (looseEq_bool_comm b _).symm
    | dateTime u => exact Bool.beq_comm
    | _ => rfl
  | host h =>
    cases hw with
    | bool b => exact (looseEq_bool_comm b _).symm
    | host g => exact Bool.beq_comm
    | _ => rfl
  | array hitems ih =>
    cases hw with
    | bool b => exact (looseEq_bool_comm b _).symm
    | array hothers => exact looseEqItems_comm fun v hv w hw => ih v hv (hothers w hw)
    | _ => rfl
  | object hkeys hentries ih =>
    cases hw with
    | bool b => exact (looseEq_bool_comm b _).symm
    | object hothers hvalues =>
      have hcomm := fun e he f hf => ih e he (hvalues f hf)
      exact Bool.eq_iff_iff.mpr ⟨looseEq_object_swap hkeys hcomm,
        looseEq_object_swap hothers fun f hf e he => (hcomm e he f hf).symm⟩
    | _ => rfl

/-- Equality after conversion is reflexive and symmetric. -/
theorem looseEq_refl_symm {v w : Value} (hv : v.UniquelyKeyed) (hw : w.UniquelyKeyed) :
    looseEq v v = true ∧ looseEq v w = looseEq w v :=
  ⟨looseEq_self hv, looseEq_comm hv hw⟩

def orderInNumbers : Value :=
  ofJson (.object [("items", .array [.int 100, .null]), ("paid", .bool true)])

def orderInTexts : Value :=
  ofJson (.object [("paid", .string "yes"), ("items", .array [.string "1e2", .string ""])])

theorem looseEq_refl_symm_orders :
    orderInNumbers.UniquelyKeyed ∧ orderInTexts.UniquelyKeyed ∧
      looseEq orderInNumbers orderInNumbers = true ∧
      looseEq orderInNumbers orderInTexts = looseEq orderInTexts orderInNumbers := by
  have horder : orderInNumbers.UniquelyKeyed := uniquelyKeyed_ofJson _
  have htexts : orderInTexts.UniquelyKeyed := uniquelyKeyed_ofJson _
  exact ⟨horder, htexts, looseEq_refl_symm horder htexts⟩

end Placeholder.Value
