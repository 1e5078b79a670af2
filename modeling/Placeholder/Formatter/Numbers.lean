import Placeholder.Formatter
import Placeholder.Number.Grouped

/-!
# Formatters of numbers

Rounding happens in decimals and sends a half away from zero. An integer stays an integer where the
result is exact.
-/

namespace Placeholder.Formatter

open Number

def numberInput : List String :=
  ["int", "float", "string"]

def notRepresentable (x : Float) : String :=
  String.ofList (positional x) ++ " is not a representable number"

def outOfRange : String :=
  "value out of range"

def decimal (x : Float) : Except String Fixed :=
  match Fixed.ofFloat? x with
  | some d => .ok d
  | none => .error (notRepresentable x)

def exact (n : Option Int64) : Except String Value :=
  match n with
  | some n => .ok (.int n)
  | none => .error outOfRange

def cents : Scalar → Except String Value
  | .int n => exact (exactInt64 (n.toInt * 100))
  | .float x => do exact ((← decimal (x * 100.0)).round 0).toInt64?

def ofCents (a : Scalar) : Value :=
  match a with
  | .int n =>
    if n.toInt % 100 = 0 then .int (clampInt64 (n.toInt / 100)) else .float (ofInt n / 100.0)
  | .float x => .float (x / 100.0)

/-- Rounds to places behind the point, or to powers of ten when `places` is negative. -/
def roundTo (x : Float) (places : Int64) : Except String Float :=
  if places < 0 then
    let scale := powerOfTen (min places.toInt.natAbs 308)
    .ok (roundAway (x / scale) * scale)
  else (decimal x).map fun d => (d.round (clampPlaces places)).toFloat

def magnitude : Scalar → Value
  | .int n =>
    match exactInt64 n.toInt.natAbs with
    | some n => .int n
    | none => .float (-(ofInt n))
  | .float x => .float (if signBit x then -x else x)

def groupedNumber (x : Float) (places : Int64) (point separator : String) : Except String String :=
  match groupedText? x places point separator with
  | some s => .ok s
  | none => .error (notRepresentable x)

def ofScalar (name : String) (format : Scalar → List Value → Except String Value) : Formatter where
  name := name
  accepts := numberInput
  format := fun v args => format v.toScalar args

def toInt : Formatter where
  name := "toInt"
  accepts := numberInput ++ ["bool"]
  format := fun v _ => .ok (.int v.toScalar.toInt64)

def toFloat : Formatter where
  name := "toFloat"
  accepts := numberInput ++ ["bool"]
  format := fun v _ => .ok (.float v.toScalar.toFloat)

def toCents : Formatter :=
  ofScalar "toCents" fun a _ => cents a

def fromCents : Formatter :=
  ofScalar "fromCents" fun a _ => .ok (ofCents a)

def round : Formatter :=
  ofScalar "round" fun a args => (roundTo a.toFloat (intArgument args 0 0)).map .float

def floor : Formatter :=
  ofScalar "floor" fun a _ => .ok (.int (Number.floor a.toFloat))

def ceil : Formatter :=
  ofScalar "ceil" fun a _ => .ok (.int (Number.ceil a.toFloat))

def number : Formatter :=
  ofScalar "number" fun a args =>
    (groupedNumber a.toFloat (intArgument args 0 2) (textArgument args 1 ".")
      (textArgument args 2 ",")).map .string

def percent : Formatter :=
  ofScalar "percent" fun a args =>
    (groupedNumber (a.toFloat * 100.0) (intArgument args 0 0) "." ",").map fun s =>
      .string (s ++ "%")

def abs : Formatter :=
  ofScalar "abs" fun a _ => .ok (magnitude a)

def numbers : List Formatter :=
  [toInt, toFloat, toCents, fromCents, round, floor, ceil, number, percent, abs]

end Placeholder.Formatter
