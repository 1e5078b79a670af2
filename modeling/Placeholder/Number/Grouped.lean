import Placeholder.Number.Fixed

/-!
# Grouped digits

Amounts with a fixed number of places and their thousands set apart. Rounding and the test for a
minus sign happen on the decimal that stands for the float, so that a number which rounds to zero is
written without a sign.
-/

namespace Placeholder.Number

def digitGroups : List Char → List (List Char)
  | [] => []
  | c :: cs =>
    match digitGroups cs with
    | [] => [[c]]
    | group :: groups =>
      if cs.length % 3 = 0 then [c] :: group :: groups else (c :: group) :: groups

/-- The decimal that stands for a float, with exactly `places` places as far as its width goes. -/
def fixed? (x : Float) (places : Nat) : Option Fixed :=
  (Fixed.ofFloat? x).map fun d => (d.round places).extend places

def Fixed.grouped (d : Fixed) (point separator : List Char) : List Char :=
  let (whole, fraction) := d.digits
  (if d.negative && d.mantissa != 0 then ['-'] else []) ++
    separator.intercalate (digitGroups whole) ++
    if fraction.isEmpty then [] else point ++ fraction

def clampPlaces (n : Int64) : Nat :=
  min n.toInt.toNat Fixed.maxPlaces

def groupedText? (x : Float) (places : Int64) (point separator : String) : Option String :=
  (fixed? x (clampPlaces places)).map fun d =>
    String.ofList (d.grouped point.toList separator.toList)

end Placeholder.Number
