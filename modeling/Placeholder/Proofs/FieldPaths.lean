import Mathlib
import Placeholder.Proofs.Coalescing
import Placeholder.Proofs.NearestWhole
import Placeholder.Proofs.WrittenNumbers

/-!
# Digits in the path of a collection

The walk through a collection reads digits as a float and looks up the decimal text of its whole
part. Over plain data that is a look-up along another path, the one with these texts in place of the
digits. It is the look-up along the path itself wherever the digits are such a text, and otherwise
as long as the digits meet no keyed container.
-/

namespace Placeholder

namespace Text

structure IsDigits (s : String) : Prop where
  nonempty : s.toList ≠ []
  isDigit : ∀ c ∈ s.toList, c.isDigit = true

theorem IsDigits.trim_eq {s : String} (h : IsDigits s) : trim s.toList = s.toList :=
  (visible_of_digits h.nonempty h.isDigit).trimmed

theorem IsDigits.undotted {s : String} (h : IsDigits s) : '.' ∉ s.toList := fun hdot => by
  cases h.isDigit '.' hdot

theorem isDigits_natText (n : Nat) : IsDigits (natText n) where
  nonempty := by
    rw [natText, String.toList_ofList]
    exact Nat.toDigits_ne_nil
  isDigit := fun c hc => by
    rw [natText, String.toList_ofList] at hc
    exact isDigit_of_mem_natDigits hc

theorem intText_natCast (n : Nat) : intText n = natText n := by
  rw [intText, intDigits, if_neg (by omega), Int.natAbs_natCast, natText]

theorem natText_eq_iff {n : Nat} {s : String} : natText n = s ↔ natDigits n = s.toList := by
  rw [natText, ← String.toList_inj, String.toList_ofList]

end Text

namespace Number

theorem scan?_digits {digits : String} (h : Text.IsDigits digits) :
    Numeral.scan? (Text.trim digits.toList) = some ⟨none, digits.toList, none, none⟩ := by
  rw [h.trim_eq]
  exact scan?_of_takeSign (takeSign_of_digits h.isDigit) h.nonempty h.isDigit

theorem isNumeral_digits {digits : String} (h : Text.IsDigits digits) :
    isNumeral digits.toList = true := by
  rw [isNumeral, scan?_digits h]
  rfl

end Number

namespace Value

open Text (IsDigits)

def digitsNumber (digits : String) : Nat :=
  Text.digitsValue digits.toList

theorem digitsNumber_natText (n : Nat) : digitsNumber (Text.natText n) = n := by
  rw [digitsNumber, Text.natText, String.toList_ofList, Text.digitsValue_natDigits]

/-- Digits without a zero in front, of a number that goes through a float as it is. -/
structure IsExact (digits : String) : Prop where
  unpadded : digits.toList.head? = some '0' → digits.toList = ['0']
  held : Number.Held (digitsNumber digits)

/-- A segment that is digits, or a name that is no numeral and selects nothing. -/
inductive IsField (segment : String) : Prop
  | digits (h : IsDigits segment)
  | name (hnumeral : Number.isNumeral segment.toList = false)
      (hselector : segment ≠ "*" ∧ segment ≠ "first" ∧ segment ≠ "last")
      (hdot : '.' ∉ segment.toList)

theorem IsField.undotted {segment : String} (h : IsField segment) : '.' ∉ segment.toList := by
  cases h with
  | digits hdigits => exact hdigits.undotted
  | name _ _ hdot => exact hdot

theorem IsField.ordinary {segment : String} (h : IsField segment) :
    segment ≠ "*" ∧ segment ≠ "first" ∧ segment ≠ "last" := by
  cases h with
  | digits hdigits =>
    refine ⟨?_, ?_, ?_⟩
    · rintro rfl
      cases hdigits.isDigit '*' (by decide)
    · rintro rfl
      cases hdigits.isDigit 'f' (by decide)
    · rintro rfl
      cases hdigits.isDigit 'l' (by decide)
  | name _ hselector _ => exact hselector

theorem IsField.walkKey_eq {segment : String} (h : IsField segment) :
    walkKey segment = if Number.isNumeral segment.toList = true then
      Text.intText (position segment).toInt else segment := by
  obtain ⟨hstar, hfirst, hlast⟩ := h.ordinary
  exact if_neg (by simp [hstar, hfirst, hlast])

/-! ### The position that digits stand for -/

theorem position_digits {digits : String} (h : IsDigits digits) :
    position digits = Number.truncate (Number.nearestFloat false (digitsNumber digits) 0) := by
  rw [position, Number.scan?_digits h]
  simp [Number.Numeral.toFloat, Number.Numeral.isNegative, Number.Numeral.exponent, digitsNumber]

theorem toInt_position_eq_iff {digits : String} (h : IsDigits digits) :
    (position digits).toInt = digitsNumber digits ↔ Number.Held (digitsNumber digits) := by
  rw [position_digits h, Number.toInt_truncate_nearestFloat_eq_iff]

/-- The walk looks digits up as the decimal text of a number. -/
theorem exists_walkKey_digits {digits : String} (h : IsDigits digits) :
    ∃ p : Nat, (position digits).toInt = p ∧ walkKey digits = Text.natText p := by
  have hnonneg : 0 ≤ (position digits).toInt := by
    rw [position_digits h]
    rcases Nat.lt_or_ge (digitsNumber digits) (2 ^ 53) with hfits | hlarge
    · have heq := Number.toInt_truncate_nearestFloat_of_lt hfits
      omega
    · have hle := Number.le_toInt_truncate_nearestFloat hlarge
      omega
  obtain ⟨p, hp⟩ := Int.eq_ofNat_of_zero_le hnonneg
  refine ⟨p, hp, ?_⟩
  rw [(IsField.digits h).walkKey_eq, if_pos (Number.isNumeral_digits h), hp, Text.intText_natCast]

theorem IsField.walkKey_of_not_digits {segment : String} (h : IsField segment)
    (hdigits : ¬ IsDigits segment) : walkKey segment = segment := by
  rw [h.walkKey_eq]
  cases h with
  | digits h => exact absurd h hdigits
  | name hnumeral _ _ => rw [hnumeral, if_neg Bool.false_ne_true]

theorem walkKey_digits_eq_iff {digits : String} (h : IsDigits digits) :
    walkKey digits = digits ↔ IsExact digits := by
  obtain ⟨p, hp, hkey⟩ := exists_walkKey_digits h
  have hheld := toInt_position_eq_iff h
  have hunpadded : Text.natDigits (digitsNumber digits) = digits.toList ↔ _ :=
    Text.natDigits_digitsValue_iff h.nonempty h.isDigit
  rw [hp, Nat.cast_inj] at hheld
  rw [hkey, Text.natText_eq_iff]
  constructor
  · intro htext
    have hnumber : p = digitsNumber digits := by
      rw [digitsNumber, ← htext, Text.digitsValue_natDigits]
    exact ⟨hunpadded.mp (hnumber ▸ htext), hheld.mp hnumber⟩
  · rintro ⟨hzero, hnumber⟩
    rw [hheld.mpr hnumber]
    exact hunpadded.mpr hzero

theorem IsField.undotted_walkKey {segment : String} (h : IsField segment) :
    '.' ∉ (walkKey segment).toList := by
  by_cases hdigits : IsDigits segment
  · obtain ⟨p, -, hkey⟩ := exists_walkKey_digits hdigits
    rw [hkey]
    exact (Text.isDigits_natText p).undotted
  · rw [h.walkKey_of_not_digits hdigits]
    exact h.undotted

/-! ### The walk as a look-up -/

theorem IsField.collectionStep_eq {v : Value} (hv : v.Plain) {segment : String}
    (h : IsField segment) : v.collectionStep segment = v.lookup (walkKey segment) := by
  obtain ⟨-, hfirst, hlast⟩ := h.ordinary
  rw [collectionStep, if_neg hfirst, if_neg hlast, h.walkKey_eq]
  split
  · exact atPosition_eq_lookup hv _
  · rfl

/-- The walk through plain data is the look-up along the path that has the decimal texts of the
positions. -/
theorem collectionWalk_eq_lookupPath_walkKey {v : Value} (hv : v.Plain) {path : List String}
    (hpath : ∀ segment ∈ path, IsField segment) :
    v.collectionWalk path = v.lookupPath (path.map walkKey) := by
  induction path generalizing v with
  | nil => exact collectionWalk_nil v
  | cons segment rest ih =>
    obtain ⟨hsegment, hrest⟩ := List.forall_mem_cons.mp hpath
    by_cases hnull : v = null
    · rw [hnull, collectionWalk_null, lookupPath_null]
    · rw [collectionWalk_cons hnull, if_neg hsegment.ordinary.1, hsegment.collectionStep_eq hv,
        List.map_cons, lookupPath_cons]
      exact ih (hv.lookup _) hrest

theorem collectionWalk_eq_lookupDotted_walkKey {v : Value} (hv : v.Plain) {path : List String}
    (hne : path ≠ []) (hpath : ∀ segment ∈ path, IsField segment) :
    v.collectionWalk path = v.lookupDotted (Text.join "." (path.map walkKey)) := by
  have hundotted : ∀ segment ∈ path.map walkKey, '.' ∉ segment.toList := by
    intro key hkey
    obtain ⟨segment, hsegment, rfl⟩ := List.mem_map.mp hkey
    exact (hpath segment hsegment).undotted_walkKey
  rw [lookupDotted, Text.splitString_join (by simpa using hne) hundotted]
  exact collectionWalk_eq_lookupPath_walkKey hv hpath

/-! ### Where digits lead to the same value -/

/-- Among keys, digits lead to the entry of their own text exactly when they are exact. -/
theorem collectionStep_object_iff {digits : String} (h : IsDigits digits) :
    (∀ entries : Entries Value,
        (object entries).collectionStep digits = ofOption (entries.get? digits)) ↔
      IsExact digits := by
  have hfield := IsField.digits h
  have hstep : ∀ entries : Entries Value,
      (object entries).collectionStep digits = ofOption (entries.get? (walkKey digits)) := by
    intro entries
    obtain ⟨-, hfirst, hlast⟩ := hfield.ordinary
    rw [collectionStep, if_neg hfirst, if_neg hlast, hfield.walkKey_eq,
      if_pos (Number.isNumeral_digits h), if_pos (Number.isNumeral_digits h)]
    rfl
  rw [← walkKey_digits_eq_iff h]
  constructor
  · intro hall
    have hsingle := hall [(digits, bool true)]
    rw [hstep, Entries.get?_cons, Entries.get?_cons, if_pos rfl] at hsingle
    by_contra hne
    rw [if_neg hne] at hsingle
    cases hsingle
  · intro hkey entries
    rw [hstep, hkey]

/-- Digits that lead to the same value either way: a keyed container needs the digits themselves, a
list only their number. -/
def Takes (v : Value) (digits : String) : Prop :=
  IsExact digits ∨
    match v with
    | object _ => False
    | array items => items.length ≤ 2 ^ 53
    | _ => True

/-- Whatever a path leads through takes the digits that it meets. -/
def TakesAll : Value → List String → Prop
  | _, [] => True
  | v, segment :: rest =>
    (IsDigits segment → v.Takes segment) ∧ (v.lookup segment).TakesAll rest

theorem lookup_array_digits (items : List Value) {digits : String} (h : IsDigits digits) :
    (array items).lookup digits =
      if digitsNumber digits < UInt64.size then ofOption items[digitsNumber digits]? else null := by
  have hread : Text.readNat? UInt64.size digits.toList =
      if digitsNumber digits < UInt64.size then some (digitsNumber digits) else none :=
    Text.readNat?_of_digits h.nonempty h.isDigit UInt64.size
  rw [lookup, hread]
  split <;> rfl

theorem lookup_walkKey_array {items : List Value} (hlength : items.length ≤ 2 ^ 53)
    {digits : String} (h : IsDigits digits) :
    (array items).lookup (walkKey digits) = (array items).lookup digits := by
  obtain ⟨p, hp, hkey⟩ := exists_walkKey_digits h
  have hsize : p < UInt64.size := by
    have hle := (position digits).toInt_le
    have hmax := Int64.toInt_maxValue
    simp only [UInt64.size]
    omega
  rw [hkey, lookup_array_digits items (Text.isDigits_natText p), digitsNumber_natText,
    if_pos hsize, lookup_array_digits items h]
  rcases Nat.lt_or_ge (digitsNumber digits) (2 ^ 53) with hfits | hlarge
  · have hsame : p = digitsNumber digits := by
      have heq := Number.toInt_truncate_nearestFloat_of_lt hfits
      rw [← position_digits h] at heq
      omega
    rw [← hsame, if_pos hsize]
  · -- The two numbers may differ here, but both lie beyond the end of the list.
    have hbeyond : items.length ≤ p := by
      have hle := Number.le_toInt_truncate_nearestFloat hlarge
      rw [← position_digits h] at hle
      omega
    rw [List.getElem?_eq_none hbeyond, List.getElem?_eq_none (hlength.trans hlarge)]
    split <;> rfl

theorem IsField.lookup_walkKey {v : Value} (hv : v.Plain) {segment : String}
    (h : IsField segment) (htakes : IsDigits segment → v.Takes segment) :
    v.lookup (walkKey segment) = v.lookup segment := by
  by_cases hdigits : IsDigits segment
  · rcases htakes hdigits with hexact | hmeets
    · rw [(walkKey_digits_eq_iff hdigits).mpr hexact]
    · cases hv with
      | array _ => exact lookup_walkKey_array hmeets hdigits
      | object _ => exact hmeets.elim
      | _ => rfl
  · rw [h.walkKey_of_not_digits hdigits]

theorem lookupPath_walkKey {v : Value} (hv : v.Plain) {path : List String}
    (hpath : ∀ segment ∈ path, IsField segment) (htakes : v.TakesAll path) :
    v.lookupPath (path.map walkKey) = v.lookupPath path := by
  induction path generalizing v with
  | nil => rfl
  | cons segment rest ih =>
    obtain ⟨hsegment, hrest⟩ := List.forall_mem_cons.mp hpath
    rw [List.map_cons, lookupPath_cons, lookupPath_cons, hsegment.lookup_walkKey hv htakes.1]
    exact ih (hv.lookup segment) hrest htakes.2

theorem collectionWalk_eq_lookupDotted_of_takesAll {v : Value} (hv : v.Plain) {path : List String}
    (hne : path ≠ []) (hpath : ∀ segment ∈ path, IsField segment) (htakes : v.TakesAll path) :
    v.collectionWalk path = v.lookupDotted (Text.join "." path) := by
  rw [lookupDotted, Text.splitString_join hne fun s hs => (hpath s hs).undotted,
    collectionWalk_eq_lookupPath_walkKey hv hpath, lookupPath_walkKey hv hpath htakes]

theorem takesAll_of_isExact {path : List String}
    (h : ∀ segment ∈ path, IsDigits segment → IsExact segment) (v : Value) : v.TakesAll path := by
  induction path generalizing v with
  | nil => exact trivial
  | cons segment rest ih =>
    obtain ⟨hsegment, hrest⟩ := List.forall_mem_cons.mp h
    exact ⟨fun hdigits => Or.inl (hsegment hdigits), ih hrest _⟩

/-- Nested objects tell the walk and the look-up apart, unless all digits are exact. -/
theorem isExact_of_lookupDotted_eq {path : List String} (hne : path ≠ [])
    (hpath : ∀ segment ∈ path, IsField segment)
    (h : (plantedAt (bool true) (walkKeys path)).collectionWalk path =
      (plantedAt (bool true) (walkKeys path)).lookupDotted (Text.join "." path)) :
    ∀ segment ∈ path, IsDigits segment → IsExact segment := by
  intro segment hsegment hdigits
  have hkey := isKey_of_lookupDotted_eq hne h.symm segment hsegment
  have hnumeral := Number.isNumeral_digits hdigits
  refine (walkKey_digits_eq_iff hdigits).mp ?_
  rw [(hpath segment hsegment).walkKey_eq, if_pos hnumeral, hkey.canonical hnumeral]

end Value

/-! ### Tokens of collections -/

namespace Pipeline

variable {k : Clock} {t : Token} {v : Value}

/-- Over the data `v` the token has the value that the source has at its field path. -/
def FollowsPath (pl : Pipeline) (t : Token) (v : Value) : Prop :=
  ∀ c : Context, c.expectedHead = none → c.source = Source.ofData v →
    pl.resolve t c = c.source.get (Text.join "." t.fieldPath)

theorem followsPath_iff_collectionWalk (k : Clock) (hkind : t.kind = .collection) (v : Value) :
    (ofList (Resolver.defaults k)).FollowsPath t v ↔
      v.collectionWalk t.fieldPath = v.lookupDotted (Text.join "." t.fieldPath) := by
  constructor
  · intro h
    have heq := h (Context.ofData v) rfl rfl
    rw [resolve_collection hkind rfl rfl] at heq
    exact Except.ok.inj heq
  · intro h c hhead hsource
    rw [resolve_collection hkind hhead hsource, hsource, h]
    rfl

/-- Over plain data a token of a collection has the value at its field path with the decimal texts
of the positions in place of the digits. That is the value at the field path itself over all plain
data exactly when the digits are exact, and over data that takes the digits it meets in any case.
Exact digits are also those that find the entry of their own text among keys. -/
theorem followsPath_iff (k : Clock) (hkind : t.kind = .collection) (hne : t.fieldPath ≠ [])
    (hfields : ∀ segment ∈ t.fieldPath, Value.IsField segment) :
    (∀ v : Value, v.Plain → ∀ c : Context, c.expectedHead = none → c.source = Source.ofData v →
        (ofList (Resolver.defaults k)).resolve t c =
          c.source.get (Text.join "." (t.fieldPath.map Value.walkKey))) ∧
      ((∀ v : Value, v.Plain → (ofList (Resolver.defaults k)).FollowsPath t v) ↔
        ∀ segment ∈ t.fieldPath, Text.IsDigits segment → Value.IsExact segment) ∧
      (∀ v : Value, v.Plain → v.TakesAll t.fieldPath →
        (ofList (Resolver.defaults k)).FollowsPath t v) ∧
      ∀ digits, Text.IsDigits digits →
        ((∀ entries : Entries Value, (Value.object entries).collectionStep digits =
            .ofOption (entries.get? digits)) ↔ Value.IsExact digits) := by
  have htakes : ∀ v : Value, v.Plain → v.TakesAll t.fieldPath →
      (ofList (Resolver.defaults k)).FollowsPath t v := fun v hv hall =>
    (followsPath_iff_collectionWalk k hkind v).mpr
      (Value.collectionWalk_eq_lookupDotted_of_takesAll hv hne hfields hall)
  refine ⟨fun v hv c hhead hsource => ?_, ⟨fun h => ?_, fun h v hv => ?_⟩, htakes,
    fun digits => Value.collectionStep_object_iff⟩
  · rw [resolve_collection hkind hhead hsource, hsource,
      Value.collectionWalk_eq_lookupDotted_walkKey hv hne hfields]
    rfl
  · have hplanted := h _ (Value.plain_plantedAt (.bool true) (Value.walkKeys t.fieldPath))
    exact Value.isExact_of_lookupDotted_eq hne hfields
      ((followsPath_iff_collectionWalk k hkind _).mp hplanted)
  · exact htakes v hv (Value.takesAll_of_isExact h v)

def listedItems : Value :=
  .object [("items", .array [.object [("sku", .string "A1")]])]

theorem plain_listedItems : listedItems.Plain := by
  refine .object fun e he => ?_
  rw [List.mem_singleton.mp he]
  refine .array fun v hv => ?_
  rw [List.mem_singleton.mp hv]
  refine .object fun e he => ?_
  rw [List.mem_singleton.mp he]
  exact .string "A1"

/-- A zero in front of a position is read over in a list, though not in all data. -/
theorem followsPath_paddedItem :
    (Token.parse "Order.items.00.sku").kind = .collection ∧
      (Token.parse "Order.items.00.sku").fieldPath = ["items", "00", "sku"] ∧
      (∀ segment ∈ ["items", "00", "sku"], Value.IsField segment) ∧
      listedItems.Plain ∧ listedItems.TakesAll ["items", "00", "sku"] ∧
      (ofList (Resolver.defaults wednesday)).FollowsPath (Token.parse "Order.items.00.sku")
        listedItems ∧
      ¬ ∀ v : Value, v.Plain → (ofList (Resolver.defaults wednesday)).FollowsPath
        (Token.parse "Order.items.00.sku") v := by
  have hkind : (Token.parse "Order.items.00.sku").kind = .collection := by decide +kernel
  have hpath : (Token.parse "Order.items.00.sku").fieldPath = ["items", "00", "sku"] := by
    decide +kernel
  have hdigits : Text.IsDigits "00" := ⟨by decide, List.all_eq_true.mp (by decide)⟩
  have hfields : ∀ segment ∈ ["items", "00", "sku"], Value.IsField segment := by
    simp only [List.forall_mem_cons, List.not_mem_nil, IsEmpty.forall_iff, implies_true, and_true]
    exact ⟨.name (by decide) (by decide) (by decide), .digits hdigits,
      .name (by decide) (by decide) (by decide)⟩
  have htakes : listedItems.TakesAll ["items", "00", "sku"] := by
    refine ⟨fun h => ?_, fun _ => Or.inr ?_, fun h => ?_, trivial⟩
    · cases h.isDigit 'i' (by decide)
    · show 1 ≤ 2 ^ 53
      decide
    · cases h.isDigit 's' (by decide)
  have hmain := followsPath_iff wednesday hkind (by rw [hpath]; exact List.cons_ne_nil _ _)
    (by rw [hpath]; exact hfields)
  rw [hpath] at hmain
  refine ⟨hkind, hpath, hfields, plain_listedItems, htakes,
    hmain.2.2.1 listedItems plain_listedItems htakes, fun hall => ?_⟩
  have hexact := hmain.2.1.mp hall "00" (by decide) hdigits
  exact absurd (hexact.unpadded (by decide)) (by decide)

def keyedItems : Value :=
  .object [("items", .object [("007", .string "x")])]

theorem plain_keyedItems : keyedItems.Plain := by
  refine .object fun e he => ?_
  rw [List.mem_singleton.mp he]
  refine .object fun e he => ?_
  rw [List.mem_singleton.mp he]
  exact .string "x"

/-- The entry under a key of digits is not found when a zero stands in front. -/
theorem not_followsPath_paddedKey :
    (Token.parse "Order.items.007").kind = .collection ∧
      (Token.parse "Order.items.007").fieldPath = ["items", "007"] ∧
      (∀ segment ∈ ["items", "007"], Value.IsField segment) ∧
      keyedItems.Plain ∧
      (Context.ofData keyedItems).expectedHead = none ∧
      (Context.ofData keyedItems).source = Source.ofData keyedItems ∧
      (ofList (Resolver.defaults wednesday)).resolve (Token.parse "Order.items.007")
        (Context.ofData keyedItems) = .ok .null ∧
      (Context.ofData keyedItems).source.get "items.007" = .ok (.string "x") ∧
      ¬ (ofList (Resolver.defaults wednesday)).FollowsPath (Token.parse "Order.items.007")
        keyedItems := by
  have hkind : (Token.parse "Order.items.007").kind = .collection := by decide +kernel
  have hpath : (Token.parse "Order.items.007").fieldPath = ["items", "007"] := by decide +kernel
  have hdigits : Text.IsDigits "007" := ⟨by decide, List.all_eq_true.mp (by decide)⟩
  have hfields : ∀ segment ∈ ["items", "007"], Value.IsField segment := by
    simp only [List.forall_mem_cons, List.not_mem_nil, IsEmpty.forall_iff, implies_true, and_true]
    exact ⟨.name (by decide) (by decide) (by decide), .digits hdigits⟩
  have hkeys : ["items", "007"].map Value.walkKey = ["items", "7"] := by decide +kernel
  have hresolve : (ofList (Resolver.defaults wednesday)).resolve (Token.parse "Order.items.007")
      (Context.ofData keyedItems) = .ok .null := by
    rw [resolve_collection hkind rfl rfl, hpath,
      Value.collectionWalk_eq_lookupPath_walkKey plain_keyedItems hfields, hkeys]
    rfl
  have hget : (Context.ofData keyedItems).source.get "items.007" = .ok (.string "x") := by rfl
  refine ⟨hkind, hpath, hfields, plain_keyedItems, rfl, rfl, hresolve, hget, fun h => ?_⟩
  have heq := h (Context.ofData keyedItems) rfl rfl
  have hjoin : Text.join "." ["items", "007"] = "items.007" := by decide
  rw [hresolve, hpath, hjoin, hget] at heq
  cases Except.ok.inj heq

end Pipeline

end Placeholder
