import Placeholder.Number.Binary

/-!
# The shortest decimal text of a float

Of all decimals that read back as a given float, `shortest` takes one with the fewest digits, and
of those the nearest to the float. Where two are equally near, the caller says which one is meant.
Everything is computed on whole numbers: the decimals that read back form the interval between the
midpoints to the neighbouring floats, with both ends included exactly when the significand is even.
-/

namespace Placeholder.Number

structure Decimal where
  digits : Nat
  exponent : Int
  deriving DecidableEq, Repr

inductive Tie where
  | up
  | even
  deriving DecidableEq, Repr

/-- Ten to the power `e`, or one where `e` is negative. -/
def tens (e : Int) : Nat :=
  Nat.pow 10 e.toNat

/-- Two to the power `e`, or one where `e` is negative. -/
def twos (e : Int) : Nat :=
  Nat.pow 2 e.toNat

namespace Binary

/-- Four times the significand, so that the midpoints to the neighbours are whole. -/
def quadruple (b : Binary) : Nat :=
  4 * b.significand

def gapBelow (b : Binary) : Nat :=
  if b.significand = Nat.pow 2 52 ∧ -1074 < b.exponent then 1 else 2

/-- Whether the decimal `d · 10^g` reads back as the magnitude of `b`. -/
def covers (b : Binary) (d : Nat) (g : Int) : Bool :=
  let q := b.exponent - 2
  let point := d * tens g * twos (-q)
  let low := (b.quadruple - b.gapBelow) * twos q * tens (-g)
  let high := (b.quadruple + 2) * twos q * tens (-g)
  if b.significand % 2 = 0 then low ≤ point && point ≤ high else low < point && point < high

/-- Whether the magnitude of `b` is at least `10^k`. -/
def reaches (b : Binary) (k : Int) : Bool :=
  tens k * twos (-b.exponent) ≤ b.significand * twos b.exponent * tens (-k)

def magnitude (b : Binary) : Int :=
  let guess := ((Nat.log2 b.significand : Int) + b.exponent) * 30103 / 100000
  if b.reaches (guess + 1) then guess + 1
  else if b.reaches guess then guess else guess - 1

/-- The decimal with places down to `10^g` that stands for `b`, if one reads back. -/
def onGrid (b : Binary) (tie : Tie) (g : Int) : Option Nat :=
  let above := b.significand * twos b.exponent * tens (-g)
  let unit := twos (-b.exponent) * tens g
  let d := above / unit
  match b.covers d g, b.covers (d + 1) g with
  | false, false => none
  | true, false => some d
  | false, true => some (d + 1)
  | true, true =>
    let rest := 2 * (above % unit)
    if rest < unit then some d
    else if unit < rest then some (d + 1)
    else
      match tie with
      | .up => some (d + 1)
      | .even => some (if d % 2 = 0 then d else d + 1)

end Binary

/-- The decimal without trailing zeros in its digits; `fuel` bounds their count. -/
def stripZeros : Nat → Decimal → Decimal
  | 0, d => d
  | fuel + 1, d =>
    if d.digits ≠ 0 ∧ d.digits % 10 = 0 then stripZeros fuel ⟨d.digits / 10, d.exponent + 1⟩ else d

/-- Tries finer and finer grids, with `fuel` of them left. -/
def shortestFrom (b : Binary) (tie : Tie) : Nat → Int → Decimal
  | 0, g => ⟨b.significand * twos b.exponent * tens (-g) / (twos (-b.exponent) * tens g), g⟩
  | fuel + 1, g =>
    match b.onGrid tie g with
    | some d => stripZeros 20 ⟨d, g⟩
    | none => shortestFrom b tie fuel (g - 1)

/-- The shortest decimal that reads back as the magnitude of a float other than zero. -/
def shortest (b : Binary) (tie : Tie) : Decimal :=
  shortestFrom b tie 18 b.magnitude

namespace Decimal

/-- The digits with a point where it belongs and no exponent; whole numbers get no point. -/
def plain (d : Decimal) : List Char :=
  let cs := Text.natDigits d.digits
  if 0 ≤ d.exponent then cs ++ List.replicate d.exponent.toNat '0'
  else
    let places := (-d.exponent).toNat
    let cs := Text.padZeros (places + 1) cs
    cs.take (cs.length - places) ++ '.' :: cs.drop (cs.length - places)

end Decimal

def positional (x : Float) : List Char :=
  if isNotANumber x then "NaN".toList
  else
    let sign := if signBit x then ['-'] else []
    match binary? x with
    | none => sign ++ "inf".toList
    | some b => if b.significand = 0 then sign ++ ['0'] else sign ++ (shortest b .up).plain

/-- The text of a float inside a template: a whole number below `10^15` is written as an integer,
without a sign on zero. -/
def floatText (x : Float) : String :=
  String.ofList <|
    match binary? x with
    | some b =>
      if b.isWhole && b.wholePart < tens 15 then Text.intDigits b.truncate else positional x
    | none => positional x

end Placeholder.Number
