import Placeholder.Number.Binary
import Placeholder.Text.Blank

/-!
# Numerals

A numeral is an optional sign, digits with at most one point among or around them, and an optional
power of ten. `Numeral.scan?` recognises exactly these texts and keeps their parts; the parts give
the value as an integer or as the nearest float.
-/

namespace Placeholder.Number

/-- The float nearest to `±digits · 10^exponent`. Decimals beyond every float are infinite, and
decimals far below the least float are zero, without their powers of ten being computed. -/
def nearestFloat (negative : Bool) (digits : Nat) (exponent : Int) : Float :=
  let size := (Nat.log2 digits : Int) * 30103 / 100000 + exponent
  let magnitude :=
    if digits = 0 then 0.0
    else if 400 < size then 1.0 / 0.0
    else if size < -400 then 0.0
    else Float.ofScientific digits (exponent < 0) exponent.natAbs
  if negative then -magnitude else magnitude

structure Numeral where
  sign : Option Char
  whole : List Char
  fraction : Option (List Char)
  /-- The sign and the digits of the power of ten, if there is one. -/
  power : Option (Option Char × List Char)
  deriving DecidableEq, Repr

namespace Numeral

def takeSign : List Char → Option Char × List Char
  | '+' :: cs => (some '+', cs)
  | '-' :: cs => (some '-', cs)
  | cs => (none, cs)

def takeFraction : List Char → Option (List Char) × List Char
  | '.' :: cs => (some (cs.takeWhile Char.isDigit), cs.dropWhile Char.isDigit)
  | cs => (none, cs)

def endingPower? (cs : List Char) : Option (Option (Option Char × List Char)) :=
  match cs with
  | [] => some none
  | c :: cs =>
    if c = 'e' ∨ c = 'E' then
      let (sign, digits) := takeSign cs
      if !digits.isEmpty && digits.all Char.isDigit then some (some (sign, digits)) else none
    else none

def scan? (cs : List Char) : Option Numeral :=
  let (sign, cs) := takeSign cs
  let whole := cs.takeWhile Char.isDigit
  let (fraction, cs) := takeFraction (cs.dropWhile Char.isDigit)
  if whole.isEmpty && (fraction.getD []).isEmpty then none
  else (endingPower? cs).map fun power => ⟨sign, whole, fraction, power⟩

def isNegative (n : Numeral) : Bool :=
  n.sign == some '-'

def exponent (n : Numeral) : Int :=
  match n.power with
  | none => 0
  | some (sign, digits) =>
    if sign = some '-' then -(Text.digitsValue digits : Int) else Text.digitsValue digits

def toFloat (n : Numeral) : Float :=
  let fraction := n.fraction.getD []
  nearestFloat n.isNegative (Text.digitsValue (n.whole ++ fraction)) (n.exponent - fraction.length)

/-- The exact value of a numeral without point and power, when it is a 64-bit integer. -/
def toInt64? (n : Numeral) : Option Int64 :=
  match n.fraction, n.power with
  | none, none =>
    let magnitude : Int := Text.digitsValue n.whole
    exactInt64 (if n.isNegative then -magnitude else magnitude)
  | _, _ => none

end Numeral

inductive Scalar where
  | int (n : Int64)
  | float (x : Float)

namespace Scalar

def toFloat : Scalar → Float
  | int n => ofInt n
  | float x => x

def toInt64 : Scalar → Int64
  | int n => n
  | float x => truncate x

/-- The order of two numbers. Two integers compare exactly, all else as floats; a NaN counts as
equal to everything, so that it fails no comparison by itself. -/
def compare : Scalar → Scalar → Ordering
  | int a, int b => Ord.compare a.toInt b.toInt
  | a, b =>
    if a.toFloat < b.toFloat then .lt
    else if b.toFloat < a.toFloat then .gt
    else .eq

end Scalar

def isNumeral (cs : List Char) : Bool :=
  (Numeral.scan? (Text.trim cs)).isSome

/-- The number that a text denotes: a float when it has a point, otherwise an integer. A numeral
that is no 64-bit integer as it stands goes through the nearest float. -/
def readScalar? (cs : List Char) : Option Scalar :=
  (Numeral.scan? (Text.trim cs)).map fun n =>
    if n.fraction.isSome then .float n.toFloat
    else .int (n.toInt64?.getD (truncate n.toFloat))

end Placeholder.Number
