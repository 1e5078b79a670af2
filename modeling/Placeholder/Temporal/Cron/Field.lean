import Placeholder.Text.Digits
import Placeholder.Text.Letter
import Placeholder.Text.Pieces

/-!
# Fields of a schedule

A field is a list of items with commas between them. An item is a value, a range or a star, with or
without a step, or a name. Each unit of time has its own range of values and its own names; a field
denotes the set of values that its items reach. Blanks may stand around numbers and names.
-/

namespace Placeholder.Temporal.Cron

/-- A unit of time with its range of values and the names of values. -/
structure TimeUnit where
  least : Nat
  greatest : Nat
  names : List (String × Nat) := []

def monthNames : List (String × Nat) :=
  [("jan", 1), ("january", 1), ("feb", 2), ("february", 2), ("mar", 3), ("march", 3), ("apr", 4),
    ("april", 4), ("may", 5), ("jun", 6), ("june", 6), ("jul", 7), ("july", 7), ("aug", 8),
    ("august", 8), ("sep", 9), ("september", 9), ("oct", 10), ("october", 10), ("nov", 11),
    ("november", 11), ("dec", 12), ("december", 12)]

def dayNames : List (String × Nat) :=
  [("sun", 1), ("sunday", 1), ("mon", 2), ("monday", 2), ("tue", 3), ("tues", 3), ("tuesday", 3),
    ("wed", 4), ("wednesday", 4), ("thu", 5), ("thurs", 5), ("thursday", 5), ("fri", 6),
    ("friday", 6), ("sat", 7), ("saturday", 7)]

namespace TimeUnit

def second : TimeUnit := ⟨0, 59, []⟩

def minute : TimeUnit := ⟨0, 59, []⟩

def hour : TimeUnit := ⟨0, 23, []⟩

def day : TimeUnit := ⟨1, 31, []⟩

def month : TimeUnit := ⟨1, 12, monthNames⟩

def weekday : TimeUnit := ⟨1, 7, dayNames⟩

def year : TimeUnit := ⟨1970, 2100, []⟩

def has (u : TimeUnit) (n : Nat) : Bool :=
  u.least ≤ n && n ≤ u.greatest

def values (u : TimeUnit) : List Nat :=
  List.range' u.least (u.greatest + 1 - u.least)

def named? (u : TimeUnit) (name : List Char) : Option Nat :=
  u.names.lookup (String.ofList (name.map Char.toLower))

end TimeUnit

inductive Span where
  | all
  | point (n : Nat)
  | range (first last : Nat)
  | names (first last : List Char)
  deriving DecidableEq, Repr

inductive Item where
  | span (s : Span)
  | stepped (s : Span) (step : Nat)
  | name (n : List Char)
  deriving DecidableEq, Repr

structure Progression where
  first : Nat
  last : Nat
  step : Nat
  deriving DecidableEq, Repr

def Progression.reaches (p : Progression) (n : Nat) : Bool :=
  p.first ≤ n && n ≤ p.last && (n - p.first) % p.step == 0

def properRange? (u : TimeUnit) (first last : Nat) : Option (Nat × Nat) :=
  if u.has first && u.has last && first ≤ last then some (first, last) else none

def Span.ends? (u : TimeUnit) : Span → Option (Nat × Nat)
  | all => some (u.least, u.greatest)
  | point n => properRange? u n n
  | range first last => properRange? u first last
  | names first last => do properRange? u (← u.named? first) (← u.named? last)

/-- The two ends of a span that takes a step; a single value begins a range to the end. -/
def Span.steppedEnds? (u : TimeUnit) : Span → Option (Nat × Nat)
  | point n => properRange? u n u.greatest
  | s => s.ends? u

def Item.progression? (u : TimeUnit) : Item → Option Progression
  | span s => (s.ends? u).map fun (first, last) => ⟨first, last, 1⟩
  | stepped s step =>
    if step = 0 then none
    else (s.steppedEnds? u).map fun (first, last) => ⟨first, last, step⟩
  | name n => (u.named? n).map fun n => ⟨n, n, 1⟩

def fieldValues? (u : TimeUnit) (items : List Item) : Option (List Nat) :=
  (items.mapM (Item.progression? u)).map fun ps =>
    u.values.filter fun n => ps.any fun p => p.reaches n

/-! ### Reading -/

def skipBlanks (cs : List Char) : List Char :=
  cs.dropWhile fun c => c == ' ' || c == '\t'

/-- A number below `2^32` with the blanks around it, and what follows. -/
def takeNumber? (cs : List Char) : Option (Nat × List Char) :=
  let cs := skipBlanks cs
  let digits := cs.takeWhile Char.isDigit
  if digits.isEmpty then none
  else if Text.digitsValue digits < UInt32.size then
    some (Text.digitsValue digits, skipBlanks (cs.dropWhile Char.isDigit))
  else none

def takeName? (cs : List Char) : Option (List Char × List Char) :=
  let cs := skipBlanks cs
  let name := cs.takeWhile Char.isAlpha
  if name.isEmpty then none else some (name, skipBlanks (cs.dropWhile Char.isAlpha))

def takePair? {α : Type} (take? : List Char → Option (α × List Char)) (cs : List Char) :
    Option ((α × α) × List Char) :=
  match take? cs with
  | some (a, '-' :: cs) => (take? cs).map fun (b, cs) => ((a, b), cs)
  | _ => none

def takeBounds? (cs : List Char) : Option (Span × List Char) :=
  match takePair? takeNumber? cs with
  | some ((a, b), rest) => some (.range a b, rest)
  | none =>
    match takeNumber? cs with
    | some (n, rest) => some (.point n, rest)
    | none => (takePair? takeName? cs).map fun ((a, b), rest) => (.names a b, rest)

/-- A span and what follows; `open_` admits a question mark for everything. -/
def takeSpan? (open_ : Bool) (cs : List Char) : Option (Span × List Char) :=
  match cs with
  | '*' :: rest => some (.all, rest)
  | '?' :: rest => if open_ then some (.all, rest) else none
  | cs => takeBounds? cs

def takeItem? (open_ : Bool) (cs : List Char) : Option (Item × List Char) :=
  match takeSpan? open_ cs with
  | some (s, '/' :: rest) =>
    match takeNumber? rest with
    | some (n, rest) => some (.stepped s n, rest)
    | none => some (.span s, '/' :: rest)
  | some (s, rest) => some (.span s, rest)
  | none => (takeName? cs).map fun (n, rest) => (.name n, rest)

def takeItems (open_ : Bool) : Nat → List Char → List Item × List Char
  | fuel + 1, ',' :: cs =>
    match takeItem? open_ cs with
    | some (item, rest) =>
      let (items, rest) := takeItems open_ fuel rest
      (item :: items, rest)
    | none => ([], ',' :: cs)
  | _, cs => ([], cs)

def takeField? (u : TimeUnit) (open_ : Bool) (cs : List Char) :
    Option (List Nat × List Char) := do
  let (item, rest) ← takeItem? open_ (skipBlanks cs)
  let (items, rest) := takeItems open_ rest.length rest
  let values ← fieldValues? u (item :: items)
  some (values, skipBlanks rest)

end Placeholder.Temporal.Cron
