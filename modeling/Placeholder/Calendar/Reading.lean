import Placeholder.Calendar.DateTime
import Placeholder.Text.Blank

/-!
# Reading date-times

A layout lists the fields of a date-time and the characters between them. Fields are numbers of one
or two digits, a year has up to four digits or a sign and any number of them, and white space before
a number is passed over. `DateTime.read?` tries the layouts that it knows one after another.
-/

namespace Placeholder.Calendar

inductive Field where
  | year | month | day | hour | minute | second
  deriving DecidableEq, Repr

inductive LayoutPart where
  | field (f : Field)
  | mark (c : Char)
  | gap
  deriving DecidableEq, Repr

structure Fields where
  year : Int := 0
  month : Nat := 0
  day : Nat := 0
  hour : Nat := 0
  minute : Nat := 0
  second : Nat := 0
  nanosecond : Nat := 0
  deriving Repr

namespace Fields

def date? (f : Fields) : Option Date :=
  Date.of? f.year f.month f.day

/-- The time of the fields; second 60 is a leap second. -/
def time? (f : Fields) : Option Time :=
  if f.second = 60 then Time.of? f.hour f.minute 59 (1000000000 + f.nanosecond)
  else Time.of? f.hour f.minute f.second f.nanosecond

def dateTime? (f : Fields) : Option DateTime := do
  let date ← f.date?
  let time ← f.time?
  some ⟨date, time⟩

def set? (f : Fields) (field : Field) (n : Int) : Option Fields :=
  let k := n.toNat
  match field with
  | .year => some { f with year := n }
  | .month => if 1 ≤ k ∧ k ≤ 12 then some { f with month := k } else none
  | .day => if 1 ≤ k ∧ k ≤ 31 then some { f with day := k } else none
  | .hour => if k ≤ 23 then some { f with hour := k } else none
  | .minute => if k ≤ 59 then some { f with minute := k } else none
  | .second => if k ≤ 60 then some { f with second := k } else none

end Fields

/-- The longest run of at most `width` digits, which must not be empty, and the rest. -/
def takeNumber? (width : Nat) (cs : List Char) : Option (Nat × List Char) :=
  let digits := (cs.take width).takeWhile Char.isDigit
  if digits.isEmpty then none else some (Text.digitsValue digits, cs.drop digits.length)

def takeYear? (cs : List Char) : Option (Int × List Char) :=
  match cs with
  | '-' :: cs => (takeNumber? cs.length cs).map fun (n, cs) => (-(n : Int), cs)
  | '+' :: cs => (takeNumber? cs.length cs).map fun (n, cs) => ((n : Int), cs)
  | cs => (takeNumber? 4 cs).map fun (n, cs) => ((n : Int), cs)

def takeField? (field : Field) (cs : List Char) : Option (Int × List Char) :=
  let cs := Text.trimStart Text.isBlank cs
  match field with
  | .year => takeYear? cs
  | _ => (takeNumber? 2 cs).map fun (n, cs) => ((n : Int), cs)

def readLayout? : List LayoutPart → Fields → List Char → Option Fields
  | [], fields, cs => if cs.isEmpty then some fields else none
  | .gap :: parts, fields, cs => readLayout? parts fields (Text.trimStart Text.isBlank cs)
  | .mark m :: parts, fields, cs =>
    match cs with
    | c :: cs => if c = m then readLayout? parts fields cs else none
    | [] => none
  | .field f :: parts, fields, cs => do
    let (n, cs) ← takeField? f cs
    let fields ← fields.set? f n
    readLayout? parts fields cs

def dateLayout : List LayoutPart :=
  [.field .year, .mark '-', .field .month, .mark '-', .field .day]

def minuteLayout : List LayoutPart :=
  [.field .hour, .mark ':', .field .minute]

def secondLayout : List LayoutPart :=
  minuteLayout ++ [.mark ':', .field .second]

def dateTimeLayouts : List (List LayoutPart) :=
  [dateLayout ++ .gap :: secondLayout,
    dateLayout ++ .mark 'T' :: secondLayout,
    dateLayout ++ .gap :: minuteLayout]

/-- The digits of a fraction of a second as nanoseconds, and the rest; digits beyond the ninth
are passed over. -/
def takeFraction? (cs : List Char) : Option (Nat × List Char) :=
  match cs with
  | '.' :: cs =>
    let digits := cs.takeWhile Char.isDigit
    if digits.isEmpty then none
    else
      let kept := digits.take 9
      some (Text.digitsValue kept * Nat.pow 10 (9 - kept.length), cs.dropWhile Char.isDigit)
  | cs => some (0, cs)

/-- Exactly `width` digits followed by one of the marks, and the rest. -/
def takeFixed? (width : Nat) (marks : List Char) (cs : List Char) :
    Option (Nat × List Char) := do
  let (n, rest) ← takeNumber? width cs
  if rest.length + width ≠ cs.length then none
  else if marks.isEmpty then some (n, rest)
  else
    match rest with
    | c :: rest => if marks.contains c then some (n, rest) else none
    | [] => none

/-- The distance from the zero meridian in seconds: `Z`, or a sign, hours and minutes. -/
def readOffset? (cs : List Char) : Option Int := do
  match cs with
  | ['Z'] => some 0
  | ['z'] => some 0
  | sign :: cs =>
    let negative ←
      if sign = '+' then some false
      else if sign = '-' ∨ sign = '−' then some true
      else none
    let (hours, cs) ← takeFixed? 2 [':'] cs
    let (minutes, cs) ← takeFixed? 2 [] cs
    if cs.isEmpty && minutes ≤ 59 && hours ≤ 23 then
      let seconds : Int := 3600 * hours + 60 * minutes
      some (if negative then -seconds else seconds)
    else none
  | [] => none

def readZoned? (cs : List Char) : Option DateTime := do
  let (year, cs) ← takeFixed? 4 ['-'] cs
  let (month, cs) ← takeFixed? 2 ['-'] cs
  let (day, cs) ← takeFixed? 2 ['T', 't', ' '] cs
  let (hour, cs) ← takeFixed? 2 [':'] cs
  let (minute, cs) ← takeFixed? 2 [':'] cs
  let (second, cs) ← takeFixed? 2 [] cs
  let (nanosecond, cs) ← takeFraction? cs
  let offset ← readOffset? cs
  let wall ← Fields.dateTime? ⟨year, month, day, hour, minute, second, nanosecond⟩
  wall.addSeconds? (-offset)

namespace DateTime

/-- Reads a date-time in one of the layouts, with a zone, or as a bare date at midnight. -/
def read? (cs : List Char) : Option DateTime :=
  (dateTimeLayouts.findSome? fun layout => (readLayout? layout {} cs).bind Fields.dateTime?)
    <|> readZoned? cs
    <|> ((readLayout? dateLayout {} cs).bind Fields.date?).map fun date => ⟨date, .midnight⟩

def ofIsoText? (cs : List Char) : Option DateTime := do
  let clock := cs.takeWhile (· != '.')
  let fields ← readLayout? (dateLayout ++ .mark 'T' :: secondLayout) {} clock
  let (nanosecond, rest) ← takeFraction? (cs.dropWhile (· != '.'))
  if rest.isEmpty then Fields.dateTime? { fields with nanosecond := nanosecond } else none

end DateTime

end Placeholder.Calendar
