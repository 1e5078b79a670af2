/-!
# Whole numbers in texts

Reading decimal digits. The 64-bit integers are those of `Int64`; `exactInt64` is the one bridge
from the integers to them, and it refuses what does not fit.
-/

namespace Placeholder

/-- The 64-bit integer with the value `n`, when there is one. -/
def exactInt64 (n : Int) : Option Int64 :=
  if Int64.minValue.toInt ≤ n ∧ n ≤ Int64.maxValue.toInt then some (Int64.ofInt n) else none

theorem exactInt64_eq_some_iff (n : Int) (w : Int64) :
    exactInt64 n = some w ↔ w.toInt = n := by
  unfold exactInt64
  constructor
  · intro h
    split at h
    · rename_i hn
      cases h
      have least := Int64.toInt_minValue
      have greatest := Int64.toInt_maxValue
      exact Int64.toInt_ofInt_of_le (by omega) (by omega)
    · cases h
  · intro h
    subst h
    rw [if_pos ⟨w.minValue_le_toInt, w.toInt_le⟩, Int64.ofInt_toInt]

def clampInt64 (n : Int) : Int64 :=
  if n < Int64.minValue.toInt then Int64.minValue
  else if Int64.maxValue.toInt < n then Int64.maxValue
  else Int64.ofInt n

namespace Text

def digitValue (c : Char) : Nat :=
  c.toNat - '0'.toNat

def digitsValue (cs : List Char) : Nat :=
  cs.foldl (fun n c => 10 * n + digitValue c) 0

def readDigits? (cs : List Char) : Option Nat :=
  if !cs.isEmpty && cs.all Char.isDigit then some (digitsValue cs) else none

/-- Digits with an optional leading `+`, as a number below `bound`. -/
def readNat? (bound : Nat) (cs : List Char) : Option Nat :=
  let digits :=
    match cs with
    | '+' :: rest => rest
    | _ => cs
  (readDigits? digits).filter (· < bound)

def readInt64? (cs : List Char) : Option Int64 :=
  match cs with
  | '-' :: rest => (readDigits? rest).bind fun n => exactInt64 (-n)
  | '+' :: rest => (readDigits? rest).bind fun n => exactInt64 n
  | _ => (readDigits? cs).bind fun n => exactInt64 n

def natDigits (n : Nat) : List Char :=
  Nat.toDigits 10 n

def intDigits (n : Int) : List Char :=
  if n < 0 then '-' :: natDigits n.natAbs else natDigits n.natAbs

/-- The text padded on the left with zeros to at least `width` characters. -/
def padZeros (width : Nat) (cs : List Char) : List Char :=
  List.replicate (width - cs.length) '0' ++ cs

/-- The decimal digits of a number, at least `width` of them. -/
def padded (width n : Nat) : List Char :=
  padZeros width (natDigits n)

def intText (n : Int) : String :=
  String.ofList (intDigits n)

def natText (n : Nat) : String :=
  String.ofList (natDigits n)

end Text

end Placeholder
