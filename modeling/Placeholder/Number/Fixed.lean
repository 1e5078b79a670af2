import Placeholder.Number.Binary

/-!
# Decimals of fixed width

A decimal here is a sign, a mantissa below `2^96` and a number of places. `ofFloat?` finds the
decimal that stands for a float: the power of two is first traded for powers of ten within the
width of the mantissa, and digits beyond the precision of a float are then rounded away. Rounding
sends a half away from zero.
-/

namespace Placeholder.Number

structure Fixed where
  negative : Bool
  mantissa : Nat
  places : Nat
  deriving DecidableEq, Repr

namespace Fixed

def width : Nat :=
  Nat.pow 2 96

def maxPlaces : Nat :=
  28

/-- The number divided by ten; the digit dropped counts as one when it is five or more. -/
def dropDigit (m : Nat) : Nat :=
  m / 10 + if 5 ≤ m % 10 then 1 else 0

/-- Trades `n` factors one half for powers of ten: an even mantissa is halved, an odd one is
multiplied by five, or halved all the same when it would grow too wide. -/
def tradeHalves : Nat → Nat → Int → Nat × Int
  | 0, m, e => (m, e)
  | n + 1, m, e =>
    if m % 2 = 0 then tradeHalves n (m / 2) (e + 1)
    else if 5 * m < width then tradeHalves n (5 * m) e
    else tradeHalves n (m / 2) (e + 1)

/-- Trades `n` factors two for powers of ten: the mantissa is doubled while its top bit is clear,
otherwise divided by five; `limit` is twice the power of ten that may still be spent. -/
def tradeTwos : Nat → Nat → Int → Option (Nat × Int)
  | 0, m, e => some (m, e)
  | n + 1, m, e =>
    if m < width / 2 then tradeTwos n (2 * m) (e - 1)
    else if (n + 1 : Int) < 2 * e then none
    else tradeTwos n (m / 5) e

/-- Multiplies by `10^n`, unless the mantissa grows too wide. -/
def raise? : Nat → Nat → Option Nat
  | 0, m => some m
  | n + 1, m => if 10 * m < width then raise? n (10 * m) else none

/-- Drops `n` digits behind the last place; a mantissa that vanishes ends the loss. -/
def dropPlaces : Nat → Nat → Nat → Nat × Nat
  | 0, m, places => (m, places)
  | n + 1, m, places =>
    if m / 10 = 0 then (0, 0) else dropPlaces n (dropDigit m) (places - 1)

/-- Drops digits until the mantissa is below `2^52` or no place is left. -/
def toPrecision : Nat → Nat → Nat × Nat
  | 0, m => (m, 0)
  | places + 1, m => if Nat.pow 2 52 ≤ m then toPrecision places (dropDigit m) else (m, places + 1)

def dropZeros : Nat → Nat → Nat × Nat
  | 0, m => (m, 0)
  | places + 1, m => if m % 10 = 0 then dropZeros places (m / 10) else (m, places + 1)

def settle? (m : Nat) (e : Int) : Option (Nat × Nat) := do
  let m ← raise? e.toNat m
  let places := (-e).toNat
  let (m, places) := dropPlaces (places - maxPlaces) m places
  let (m, places) := toPrecision places m
  some (dropZeros places m)

def ofBinary? (b : Binary) : Option Fixed := do
  if b.significand = 0 then
    some ⟨b.negative, 0, 0⟩
  else
    let (m, e) ←
      if b.exponent < 0 then
        some (tradeHalves (-b.exponent).toNat b.significand b.exponent)
      else
        tradeTwos b.exponent.toNat b.significand b.exponent
    let (m, places) ← settle? m e
    some ⟨b.negative, m, places⟩

def ofFloat? (x : Float) : Option Fixed :=
  (binary? x).bind ofBinary?

/-- The decimal rounded to at most `places` places; a half goes away from zero. -/
def round (d : Fixed) (places : Nat) : Fixed :=
  if d.mantissa = 0 then ⟨d.negative, 0, places⟩
  else if d.places ≤ places then d
  else
    let unit := Nat.pow 10 (d.places - places)
    ⟨d.negative, (2 * d.mantissa + unit) / (2 * unit), places⟩

/-- Appends `n` zeros behind the point, as many as the width of the mantissa admits. -/
def appendZeros : Nat → Fixed → Fixed
  | 0, d => d
  | n + 1, d =>
    if 10 * d.mantissa < width then appendZeros n ⟨d.negative, 10 * d.mantissa, d.places + 1⟩
    else d

/-- The decimal with zeros appended until it has `places` places. -/
def extend (d : Fixed) (places : Nat) : Fixed :=
  appendZeros (places - d.places) d

def digits (d : Fixed) : List Char × List Char :=
  let cs := Text.padded (d.places + 1) d.mantissa
  (cs.take (cs.length - d.places), cs.drop (cs.length - d.places))

def toInt64? (d : Fixed) : Option Int64 :=
  let whole : Int := (d.mantissa / Nat.pow 10 d.places : Nat)
  exactInt64 (if d.negative then -whole else whole)

/-- The float for a decimal: the whole part and the fraction are converted apart, and their sum is
rounded again to the places of the decimal. -/
def toFloat (d : Fixed) : Float :=
  if d.places = 0 then
    if d.negative && d.mantissa != 0 then -(Float.ofNat d.mantissa) else Float.ofNat d.mantissa
  else
    let unit := Nat.pow 10 d.places
    let whole := Float.ofNat (d.mantissa / unit)
    let fraction := Float.ofNat (d.mantissa % unit) / Float.ofNat unit
    let magnitude :=
      if fraction == 0.0 then whole
      else
        let scale := powerOfTen d.places
        roundAway ((whole + fraction) * scale) / scale
    if d.negative then -magnitude else magnitude

end Fixed

end Placeholder.Number
