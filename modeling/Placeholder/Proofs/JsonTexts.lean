import Mathlib
import Placeholder.Json.Reader
import Placeholder.Proofs.WrittenDeclaration
import Placeholder.Proofs.WrittenNumbers

/-!
# Texts of JSON trees

The compact text of a tree is cut into the tokens that it was written from, whatever stands behind
it and does not go on with a number, and the tokens are gathered into the tree again. Floats are
left out, as are parts that denote nothing.
-/

namespace Placeholder.Json

open Clause (Stops stops_nil stops_cons takeWhile_append_of_stops)

/-- A tree without floats whose integers have 64 bits and whose parts all denote something. -/
inductive Lossless : Json → Prop
  | null : Lossless null
  | bool (b : Bool) : Lossless (bool b)
  | int (n : Int64) : Lossless (int n.toInt)
  | string (s : String) : Lossless (string s)
  | array {items : List Json} (h : ∀ j ∈ items, Lossless j) : Lossless (array items)
  | object {members : List (String × Json)} (h : ∀ e ∈ members, Lossless e.2) :
      Lossless (object members)

mutual

/-- The tokens of the text of a tree whose numbers are read back. -/
def tokens : Json → List Token
  | null => [.null]
  | bool b => [.bool b]
  | int n => [.number (some (int n))]
  | float x => [.number (some (float x))]
  | string s => [.string (some s)]
  | array items => .openArray :: (itemTokens items ++ [.closeArray])
  | object members => .openObject :: (memberTokens members ++ [.closeObject])
  | unreadable => [.null]

def itemTokens : List Json → List Token
  | [] => []
  | [j] => tokens j
  | j :: k :: rest => tokens j ++ .comma :: itemTokens (k :: rest)

def memberTokens : List (String × Json) → List Token
  | [] => []
  | [(name, j)] => .string (some name) :: .colon :: tokens j
  | (name, j) :: k :: rest =>
    .string (some name) :: .colon :: tokens j ++ .comma :: memberTokens (k :: rest)

end

/-! ### Strings -/

theorem hexNumber?_hexDigits {n : Nat} (h : n < 0x20) :
    hexNumber? '0' '0' (hexDigit (n / 16)) (hexDigit (n % 16)) = some n := by
  have hall : ∀ m < 0x20,
      hexNumber? '0' '0' (hexDigit (m / 16)) (hexDigit (m % 16)) = some m := by decide
  exact hall n h

theorem joinUnits?_control {n : Nat} (h : n < 0x20) (units : List Unit16) :
    joinUnits? (.escaped n :: units) = (joinUnits? units).map (Char.ofNat n :: ·) := by
  have hleading : isLeading n = false := by
    simp only [isLeading, Bool.and_eq_false_iff, decide_eq_false_iff_not]
    omega
  have htrailing : isTrailing n = false := by
    simp only [isTrailing, Bool.and_eq_false_iff, decide_eq_false_iff_not]
    omega
  rcases units with _ | ⟨_ | m, units⟩
  · simp only [joinUnits?, hleading, htrailing, Bool.or_self, Bool.false_eq_true, if_false]
  · simp only [joinUnits?, hleading, htrailing, Bool.or_self, Bool.false_eq_true, if_false]
  · simp only [joinUnits?, hleading, htrailing, Bool.false_eq_true, if_false]

theorem takeString?_escaped {e d : Char} (he : e ≠ 'u') (hd : unescape? e = some d)
    (cs : List Char) : takeString? ('\\' :: e :: cs) =
      (takeString? cs).map fun (units, rest) => (.plain d :: units, rest) := by
  rw [takeString?]
  · rw [hd]
    cases takeString? cs <;> rfl
  · exact fun _ _ _ _ _ hu _ => he hu

theorem takeString?_plain {c : Char} (hquote : c ≠ '"') (hbackslash : c ≠ '\\')
    (hcontrol : ¬ c.toNat < 0x20) (cs : List Char) : takeString? (c :: cs) =
      (takeString? cs).map fun (units, rest) => (.plain c :: units, rest) := by
  have hplain : ¬ (c.toNat < 0x20 ∨ c = '\\') := not_or.mpr ⟨hcontrol, hbackslash⟩
  rw [takeString?, if_neg hplain]
  · cases takeString? cs <;> rfl
  · exact hquote
  · exact fun _ _ _ _ _ h _ => hbackslash h
  · exact fun _ _ h _ => hbackslash h

/-- An escaped character is one unit, which denotes the character. -/
theorem exists_unit (c : Char) : ∃ u : Unit16,
    (∀ cs, takeString? (escape c ++ cs) =
      (takeString? cs).map fun (units, rest) => (u :: units, rest)) ∧
    ∀ units, joinUnits? (u :: units) = (joinUnits? units).map (c :: ·) := by
  unfold escape
  split_ifs with hquote hbackslash hbackspace htab hline hpage hreturn hcontrol
  -- seven characters have an escape of their own, the other control characters share one
  · exact ⟨.plain c, takeString?_escaped (by decide) (by rw [hquote]; rfl), fun _ => rfl⟩
  · exact ⟨.plain c, takeString?_escaped (by decide) (by rw [hbackslash]; rfl), fun _ => rfl⟩
  · exact ⟨.plain c, takeString?_escaped (by decide) (by rw [hbackspace]; rfl), fun _ => rfl⟩
  · exact ⟨.plain c, takeString?_escaped (by decide) (by rw [htab]; rfl), fun _ => rfl⟩
  · exact ⟨.plain c, takeString?_escaped (by decide) (by rw [hline]; rfl), fun _ => rfl⟩
  · exact ⟨.plain c, takeString?_escaped (by decide) (by rw [hpage]; rfl), fun _ => rfl⟩
  · exact ⟨.plain c, takeString?_escaped (by decide) (by rw [hreturn]; rfl), fun _ => rfl⟩
  · refine ⟨.escaped c.toNat, fun cs => ?_, fun units => ?_⟩
    · simp only [List.cons_append, List.nil_append, takeString?, hexNumber?_hexDigits hcontrol]
      cases takeString? cs <;> rfl
    · rw [joinUnits?_control hcontrol, Char.ofNat_toNat]
  · exact ⟨.plain c, takeString?_plain hquote hbackslash hcontrol, fun _ => rfl⟩

theorem exists_units (cs rest : List Char) : ∃ units : List Unit16,
    takeString? (cs.flatMap escape ++ '"' :: rest) = some (units, rest) ∧
      joinUnits? units = some cs := by
  induction cs with
  | nil => exact ⟨[], by rfl, by rfl⟩
  | cons c cs ih =>
    obtain ⟨u, htake, hjoin⟩ := exists_unit c
    obtain ⟨units, htakes, hjoins⟩ := ih
    refine ⟨u :: units, ?_, ?_⟩
    · rw [List.flatMap_cons, List.append_assoc, htake, htakes, Option.map_some]
    · rw [hjoin, hjoins, Option.map_some]

/-! ### Numbers -/

/-- A character that may go on with a number behind its digits. -/
def continuesNumber (c : Char) : Bool :=
  c.isDigit || c == '.' || c == 'e' || c == 'E'

theorem takePlaces?_of_stops {rest : List Char} (h : Stops continuesNumber rest) :
    takePlaces? rest = some (none, rest) := by
  unfold takePlaces?
  split
  · cases stops_cons.mp h
  · rfl

theorem takeExponent?_of_stops {rest : List Char} (h : Stops continuesNumber rest) :
    takeExponent? rest = some (none, rest) := by
  cases rest with
  | nil => rfl
  | cons c rest =>
    have hc : ¬ (c = 'e' ∨ c = 'E') := by
      rintro (rfl | rfl) <;> cases stops_cons.mp h
    rw [takeExponent?, if_neg hc]

theorem takeNumber?_digits {digits rest : List Char} (negative : Bool) (hne : digits ≠ [])
    (hdigits : ∀ c ∈ digits, c.isDigit = true) (hzero : digits.head? = some '0' → digits = ['0'])
    (hrest : Stops continuesNumber rest) :
    takeNumber? negative (digits ++ rest) =
      some (.number (number? negative digits none none), rest) := by
  have hstops : Stops Char.isDigit rest := by
    intro c hc
    have hcontinues := hrest c hc
    simp only [continuesNumber, Bool.or_eq_false_iff] at hcontinues
    exact hcontinues.1.1.1
  obtain ⟨htake, hdrop⟩ := takeWhile_append_of_stops hdigits hstops
  have hplain : (digits.isEmpty || (digits.length != 1 && digits.head? == some '0')) = false := by
    rw [List.isEmpty_eq_false_iff.mpr hne, Bool.false_or]
    by_cases hhead : digits.head? = some '0'
    · rw [hzero hhead]
      rfl
    · rw [beq_eq_false_iff_ne.mpr hhead, Bool.and_false]
  rw [takeNumber?, htake, hdrop, hplain, takePlaces?_of_stops hrest]
  simp only [Bool.false_eq_true, if_false, Option.bind_eq_bind, Option.bind_some,
    takeExponent?_of_stops hrest]

theorem number?_natDigits (n : Int64) :
    number? (decide (n.toInt < 0)) (Text.natDigits n.toInt.natAbs) none none =
      some (.int n.toInt) := by
  have hexact : exactInt64 n.toInt = some n := (exactInt64_eq_some_iff _ _).mpr rfl
  have hmax := n.toInt_lt
  have hmin := n.le_toInt
  rw [number?, Text.digitsValue_natDigits]
  by_cases hneg : n.toInt < 0
  · have hvalue : -(n.toInt.natAbs : Int) = n.toInt := by omega
    have hpos : 0 < n.toInt.natAbs := by omega
    simp only [hneg, hpos, hvalue, hexact, Option.isNone_none, Option.isSome_some, decide_true,
      Bool.not_true, Bool.and_false, Bool.and_true, Bool.false_eq_true, if_false, if_true,
      Bool.false_and]
  · have hvalue : (n.toInt.natAbs : Int) = n.toInt := by omega
    have hsize : n.toInt.natAbs < UInt64.size := by
      rw [UInt64.size]
      omega
    simp only [hneg, hvalue, hsize, Option.isNone_none, decide_false, decide_true, Bool.not_false,
      Bool.and_true, if_true]

theorem takeToken?_of_digit {c : Char} (hc : c.isDigit = true) (cs : List Char) :
    takeToken? (c :: cs) = takeNumber? false (c :: cs) := by
  rw [takeToken?]
  all_goals
    intro rest heq
    cases heq
    cases hc

theorem isSpace_of_isDigit {c : Char} (hc : c.isDigit = true) : isSpace c = false := by
  rw [Bool.eq_false_iff]
  intro h
  simp only [isSpace, Bool.or_eq_true, beq_iff_eq] at h
  rcases h with ((rfl | rfl) | rfl) | rfl <;> cases hc

/-! ### Texts cut into tokens -/

/-- The tokens of a text, with any fuel that covers its length. -/
def Lexes (cs : List Char) (ts : List Token) : Prop :=
  ∀ fuel, cs.length ≤ fuel → tokens? fuel cs = some ts

theorem lexes_nil : Lexes [] [] := by
  intro fuel _
  rw [tokens?]

theorem Lexes.cons {c : Char} {cs rest : List Char} {t : Token} {ts : List Token}
    (hspace : isSpace c = false) (htake : takeToken? (c :: cs) = some (t, rest))
    (hlength : rest.length ≤ cs.length) (h : Lexes rest ts) : Lexes (c :: cs) (t :: ts) := by
  intro fuel hfuel
  cases fuel with
  | zero => cases hfuel
  | succ fuel =>
    have hrest := h fuel (hlength.trans (Nat.le_of_succ_le_succ hfuel))
    rw [tokens?, hspace, htake]
    simp only [Bool.false_eq_true, if_false, Option.bind_eq_bind, Option.bind_some, hrest]

/-- A text is cut into tokens in front of everything that does not go on with a number. -/
def CutsInto (cs : List Char) (ts : List Token) : Prop :=
  ∀ rest us, Stops continuesNumber rest → Lexes rest us → Lexes (cs ++ rest) (ts ++ us)

/-- A character that is a token by itself. -/
structure IsMark (c : Char) (t : Token) : Prop where
  taken : ∀ cs, takeToken? (c :: cs) = some (t, cs)
  visible : isSpace c = false
  stops : continuesNumber c = false

theorem CutsInto.nil : CutsInto [] [] := by
  intro rest us _ h
  exact h

section

variable {c : Char} {t : Token} (hc : IsMark c t) {a b : List Char} {ts us : List Token}
include hc

theorem CutsInto.cons (ha : CutsInto a ts) : CutsInto (c :: a) (t :: ts) := by
  intro rest vs hrest hvs
  exact (ha rest vs hrest hvs).cons hc.visible (hc.taken _) le_rfl

theorem CutsInto.append_cons (ha : CutsInto a ts) (hb : CutsInto b us) :
    CutsInto (a ++ c :: b) (ts ++ t :: us) := by
  intro rest vs hrest hvs
  have hbehind := (CutsInto.cons hc hb) rest vs hrest hvs
  have hall := ha (c :: b ++ rest) (t :: us ++ vs) (stops_cons.mpr hc.stops) hbehind
  simpa only [List.append_assoc] using hall

end

theorem cutsInto_string (s : String) : CutsInto (writeString s) [.string (some s)] := by
  intro rest us _ h
  obtain ⟨units, htake, hjoin⟩ := exists_units s.toList rest
  have htoken : takeToken? ('"' :: (s.toList.flatMap escape ++ '"' :: rest)) =
      some (.string (some s), rest) := by
    rw [takeToken?, htake, Option.map_some]
    simp only [hjoin, Option.map_some, String.ofList_toList]
  have hlength : rest.length ≤ (s.toList.flatMap escape ++ '"' :: rest).length :=
    ((List.suffix_cons '"' rest).trans (List.suffix_append _ _)).length_le
  have hwritten : writeString s ++ rest = '"' :: (s.toList.flatMap escape ++ '"' :: rest) := by
    simp only [writeString, List.cons_append, List.append_assoc, List.nil_append]
  rw [hwritten]
  exact h.cons (by decide) htoken hlength

theorem cutsInto_int (n : Int64) :
    CutsInto (Text.intDigits n.toInt) [.number (some (.int n.toInt))] := by
  intro rest us hrest h
  have hne : Text.natDigits n.toInt.natAbs ≠ [] := Nat.toDigits_ne_nil
  have hdigits : ∀ c ∈ Text.natDigits n.toInt.natAbs, c.isDigit = true :=
    fun _ => Text.isDigit_of_mem_natDigits
  have hzero := (Text.natDigits_digitsValue_iff hne hdigits).mp
    (by rw [Text.digitsValue_natDigits])
  have htake := takeNumber?_digits (decide (n.toInt < 0)) hne hdigits hzero hrest
  rw [number?_natDigits] at htake
  by_cases hneg : n.toInt < 0
  · rw [Text.intDigits, if_pos hneg, List.cons_append]
    rw [decide_eq_true hneg] at htake
    exact h.cons (by decide) (by rw [takeToken?, htake]) (List.suffix_append _ rest).length_le
  · rw [Text.intDigits, if_neg hneg]
    rw [decide_eq_false hneg] at htake
    obtain ⟨c, cs, heq⟩ := List.exists_cons_of_ne_nil hne
    have hc : c.isDigit = true := hdigits c (heq ▸ List.mem_cons_self)
    rw [heq, List.cons_append] at htake ⊢
    exact h.cons (isSpace_of_isDigit hc) (by rw [takeToken?_of_digit hc, htake])
      (List.suffix_append cs rest).length_le

theorem cutsInto_word {c : Char} {cs : List Char} {t : Token} (hspace : isSpace c = false)
    (htake : ∀ rest, takeToken? (c :: cs ++ rest) = some (t, rest)) : CutsInto (c :: cs) [t] := by
  intro rest us _ h
  exact h.cons hspace (htake rest) (List.suffix_append cs rest).length_le

theorem isMark_comma : IsMark ',' .comma :=
  ⟨fun _ => rfl, rfl, rfl⟩

theorem cutsInto_items {items : List Json} (h : ∀ j ∈ items, CutsInto j.write j.tokens) :
    CutsInto (writeItems items) (itemTokens items) := by
  induction items with
  | nil => exact .nil
  | cons j rest ih =>
    obtain ⟨hj, hrest⟩ := List.forall_mem_cons.mp h
    cases rest with
    | nil => exact hj
    | cons k rest => exact hj.append_cons isMark_comma (ih hrest)

theorem cutsInto_members {members : List (String × Json)}
    (h : ∀ e ∈ members, CutsInto e.2.write e.2.tokens) :
    CutsInto (writeMembers members) (memberTokens members) := by
  induction members with
  | nil => exact .nil
  | cons e rest ih =>
    obtain ⟨name, j⟩ := e
    obtain ⟨hj, hrest⟩ := List.forall_mem_cons.mp h
    have hmember : CutsInto (writeString name ++ ':' :: j.write)
        (.string (some name) :: .colon :: j.tokens) :=
      (cutsInto_string name).append_cons ⟨fun _ => rfl, rfl, rfl⟩ hj
    cases rest with
    | nil => exact hmember
    | cons f rest => exact hmember.append_cons isMark_comma (ih hrest)

/-- The text of a tree is cut into the tokens that it was written from. -/
theorem Lossless.cutsInto {j : Json} (h : j.Lossless) : CutsInto j.write j.tokens := by
  induction h with
  | null => exact cutsInto_word rfl fun _ => rfl
  | bool b => cases b <;> exact cutsInto_word rfl fun _ => rfl
  | int n => exact cutsInto_int n
  | string s => exact cutsInto_string s
  | array _ ih =>
    have hitems := (cutsInto_items ih).append_cons (c := ']') ⟨fun _ => rfl, rfl, rfl⟩ .nil
    exact hitems.cons (c := '[') ⟨fun _ => rfl, rfl, rfl⟩
  | object _ ih =>
    have hmembers := (cutsInto_members ih).append_cons (c := '}') ⟨fun _ => rfl, rfl, rfl⟩ .nil
    exact hmembers.cons (c := '{') ⟨fun _ => rfl, rfl, rfl⟩

/-! ### Tokens gathered into a tree -/

/-- Tokens are gathered into a tree, whatever stands behind them, with any fuel that covers them
twice. -/
def GathersInto (ts : List Token) (j : Json) : Prop :=
  ∀ fuel rest, 2 * ts.length ≤ fuel → value? fuel (ts ++ rest) = some (j, rest)

theorem gathersInto_single {t : Token} {j : Json}
    (h : ∀ fuel rest, value? (fuel + 1) (t :: rest) = some (j, rest)) : GathersInto [t] j := by
  intro fuel rest hfuel
  cases fuel with
  | zero => cases hfuel
  | succ fuel => exact h fuel rest

theorem value?_openArray {ts : List Token} (h : ∀ us, ts ≠ .closeArray :: us) (fuel : Nat) :
    value? (fuel + 1) (.openArray :: ts) =
      (items? fuel ts).map fun (items, rest) => (.array items, rest) := by
  rw [value?]
  exact h

theorem value?_openObject {ts : List Token} (h : ∀ us, ts ≠ .closeObject :: us) (fuel : Nat) :
    value? (fuel + 1) (.openObject :: ts) = (members? fuel ts).map fun (members, rest) =>
      ((members.map Json.object).getD .unreadable, rest) := by
  rw [value?]
  exact h

theorem tokens_ne_closeArray (j : Json) (rest us : List Token) :
    j.tokens ++ rest ≠ .closeArray :: us := by
  intro h
  cases j <;> cases h

theorem itemTokens_ne_closeArray {items : List Json} (hne : items ≠ []) (rest us : List Token) :
    itemTokens items ++ rest ≠ .closeArray :: us := by
  obtain ⟨j, items, rfl⟩ := List.exists_cons_of_ne_nil hne
  cases items with
  | nil => exact tokens_ne_closeArray j rest us
  | cons k items =>
    rw [itemTokens, List.append_assoc]
    exact tokens_ne_closeArray j _ us

theorem memberTokens_ne_closeObject {members : List (String × Json)} (hne : members ≠ [])
    (rest us : List Token) : memberTokens members ++ rest ≠ .closeObject :: us := by
  obtain ⟨e, members, rfl⟩ := List.exists_cons_of_ne_nil hne
  intro h
  cases members <;> cases h

theorem items?_itemTokens {items : List Json} (h : ∀ j ∈ items, GathersInto j.tokens j)
    (hne : items ≠ []) {fuel : Nat} (hfuel : 2 * (itemTokens items).length + 1 ≤ fuel)
    (rest : List Token) :
    items? fuel (itemTokens items ++ .closeArray :: rest) = some (items, rest) := by
  induction items generalizing fuel with
  | nil => exact absurd rfl hne
  | cons j items ih =>
    obtain ⟨hj, hitems⟩ := List.forall_mem_cons.mp h
    obtain ⟨fuel, rfl⟩ : ∃ n, fuel = n + 1 := Nat.exists_eq_succ_of_ne_zero (by omega)
    cases items with
    | nil =>
      have hitem := hj fuel (.closeArray :: rest) (by rw [itemTokens] at hfuel; omega)
      rw [itemTokens, items?, hitem]
      rfl
    | cons k items =>
      simp only [itemTokens, List.length_append, List.length_cons] at hfuel
      have hitem := hj fuel (.comma :: itemTokens (k :: items) ++ .closeArray :: rest) (by omega)
      have hmore := @ih hitems (List.cons_ne_nil k items) fuel (by omega)
      rw [itemTokens, List.append_assoc, items?, hitem]
      simp only [Option.bind_eq_bind, Option.bind_some, List.cons_append, hmore]

theorem members?_memberTokens {members : List (String × Json)}
    (h : ∀ e ∈ members, GathersInto e.2.tokens e.2) (hne : members ≠ []) {fuel : Nat}
    (hfuel : 2 * (memberTokens members).length + 1 ≤ fuel) (rest : List Token) :
    members? fuel (memberTokens members ++ .closeObject :: rest) = some (some members, rest) := by
  induction members generalizing fuel with
  | nil => exact absurd rfl hne
  | cons e members ih =>
    obtain ⟨name, j⟩ := e
    obtain ⟨(hj : GathersInto j.tokens j), hmembers⟩ := List.forall_mem_cons.mp h
    obtain ⟨fuel, rfl⟩ : ∃ n, fuel = n + 1 := Nat.exists_eq_succ_of_ne_zero (by omega)
    cases members with
    | nil =>
      simp only [memberTokens, List.length_cons] at hfuel
      have hitem := hj fuel (.closeObject :: rest) (by omega)
      rw [memberTokens, List.cons_append, List.cons_append, members?, hitem]
      rfl
    | cons f members =>
      simp only [memberTokens, List.length_append, List.length_cons] at hfuel
      have hitem := hj fuel (.comma :: memberTokens (f :: members) ++ .closeObject :: rest) (by omega)
      have hmore := @ih hmembers (List.cons_ne_nil f members) fuel (by omega)
      rw [memberTokens, List.append_assoc, List.cons_append, List.cons_append, members?, hitem]
      simp only [Option.bind_eq_bind, Option.bind_some, List.cons_append, hmore, Option.map_some]

/-- The tokens of a tree are gathered into it. -/
theorem Lossless.gathersInto {j : Json} (h : j.Lossless) : GathersInto j.tokens j := by
  induction h with
  | null => exact gathersInto_single fun _ _ => by rw [value?]
  | bool b => exact gathersInto_single fun _ _ => by rw [value?]
  | int n => exact gathersInto_single fun _ _ => by rw [value?]; rfl
  | string s => exact gathersInto_single fun _ _ => by rw [value?]; rfl
  | @array items _ ih =>
    intro fuel rest hfuel
    simp only [tokens, List.length_cons, List.length_append, List.length_nil] at hfuel
    obtain ⟨fuel, rfl⟩ : ∃ n, fuel = n + 1 := Nat.exists_eq_succ_of_ne_zero (by omega)
    -- an empty array closes at once, and no item begins with the closing bracket
    by_cases hne : items = []
    · rw [hne]
      rfl
    · have hitems := items?_itemTokens ih hne (show _ ≤ fuel by omega) rest
      simp only [tokens, List.cons_append, List.append_assoc, List.nil_append]
      rw [value?_openArray (itemTokens_ne_closeArray hne _), hitems]
      rfl
  | @object members _ ih =>
    intro fuel rest hfuel
    simp only [tokens, List.length_cons, List.length_append, List.length_nil] at hfuel
    obtain ⟨fuel, rfl⟩ : ∃ n, fuel = n + 1 := Nat.exists_eq_succ_of_ne_zero (by omega)
    by_cases hne : members = []
    · rw [hne]
      rfl
    · have hmembers := members?_memberTokens ih hne (show _ ≤ fuel by omega) rest
      simp only [tokens, List.cons_append, List.append_assoc, List.nil_append]
      rw [value?_openObject (memberTokens_ne_closeObject hne _), hmembers]
      rfl

/-- The text of a tree without floats is read as this tree. -/
theorem Lossless.parse?_text {j : Json} (h : j.Lossless) : parse? j.text = some j := by
  have hlexes := h.cutsInto [] [] (stops_nil _) lexes_nil
  simp only [List.append_nil] at hlexes
  have hgathers := h.gathersInto (2 * j.tokens.length + 2) [] (by omega)
  rw [List.append_nil] at hgathers
  rw [parse?, text]
  simp only [String.toList_ofList, hlexes _ le_rfl, Option.bind_eq_bind, Option.bind_some, hgathers,
    List.isEmpty_nil, if_true]

end Placeholder.Json
