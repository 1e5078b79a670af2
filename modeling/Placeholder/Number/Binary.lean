import Placeholder.Text.Digits

/-!
# Binary floating-point numbers

A float that is neither infinite nor a NaN is `±m · 2^e` with a natural number `m`. `binary?` reads
those parts from its bits; truncating, rounding and the test for a whole number are arithmetic on
them.
-/

namespace Placeholder.Number

/-- A finite float as a sign, a whole significand and a power of two. -/
structure Binary where
  negative : Bool
  significand : Nat
  exponent : Int
  deriving DecidableEq, Repr

namespace Binary

def wholePart (b : Binary) : Nat :=
  if 0 ≤ b.exponent then b.significand * Nat.pow 2 b.exponent.toNat
  else b.significand / Nat.pow 2 (-b.exponent).toNat

def isWhole (b : Binary) : Bool :=
  0 ≤ b.exponent || b.significand % Nat.pow 2 (-b.exponent).toNat == 0

def truncate (b : Binary) : Int :=
  if b.negative then -(b.wholePart : Int) else b.wholePart

def floor (b : Binary) : Int :=
  if b.negative && !b.isWhole then b.truncate - 1 else b.truncate

def ceil (b : Binary) : Int :=
  if !b.negative && !b.isWhole then b.truncate + 1 else b.truncate

/-- The whole number nearest to the magnitude; a half goes up. -/
def nearest (b : Binary) : Nat :=
  if 0 ≤ b.exponent then b.significand * Nat.pow 2 b.exponent.toNat
  else
    let unit := Nat.pow 2 (-b.exponent).toNat
    (2 * b.significand + unit) / (2 * unit)

end Binary

def signBit (x : Float) : Bool :=
  Nat.pow 2 63 ≤ x.toBits.toNat

def exponentBits (x : Float) : Nat :=
  x.toBits.toNat / Nat.pow 2 52 % 2048

def fractionBits (x : Float) : Nat :=
  x.toBits.toNat % Nat.pow 2 52

def isNotANumber (x : Float) : Bool :=
  exponentBits x == 2047 && fractionBits x != 0

def isInfinite (x : Float) : Bool :=
  exponentBits x == 2047 && fractionBits x == 0

def binary? (x : Float) : Option Binary :=
  match exponentBits x with
  | 2047 => none
  | 0 => some ⟨signBit x, fractionBits x, -1074⟩
  | e + 1 => some ⟨signBit x, Nat.pow 2 52 + fractionBits x, (e : Int) - 1074⟩

def isWhole (x : Float) : Bool :=
  match binary? x with
  | some b => b.isWhole
  | none => false

/-- A whole number taken from the parts of a float: the nearest 64-bit integer when it is too
large, and zero for what is not a number. -/
def saturate (part : Binary → Int) (x : Float) : Int64 :=
  match binary? x with
  | some b => clampInt64 (part b)
  | none =>
    if isNotANumber x then 0
    else if signBit x then Int64.minValue else Int64.maxValue

def truncate (x : Float) : Int64 :=
  saturate Binary.truncate x

def floor (x : Float) : Int64 :=
  saturate Binary.floor x

def ceil (x : Float) : Int64 :=
  saturate Binary.ceil x

def ofInt (n : Int64) : Float :=
  Float.ofInt n.toInt

/-- The whole float nearest to `x`; a half goes away from zero and the sign of zero stays. -/
def roundAway (x : Float) : Float :=
  match binary? x with
  | none => x
  | some b => if b.negative then -(Float.ofNat b.nearest) else Float.ofNat b.nearest

/-- `x` multiplied `n` times by `base`, by repeated squaring; `fuel` bounds the binary digits. -/
def powerStep (fuel : Nat) (x base : Float) (n : Nat) : Float :=
  match fuel with
  | 0 => x
  | fuel + 1 =>
    let x := if n % 2 = 1 then x * base else x
    if n / 2 = 0 then x else powerStep fuel x (base * base) (n / 2)

/-- Ten to the power `n`, rounded after every multiplication. -/
def powerOfTen (n : Nat) : Float :=
  powerStep (n + 1) 1.0 10.0 n

end Placeholder.Number
