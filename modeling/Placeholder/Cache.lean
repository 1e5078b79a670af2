import Placeholder.Entries

/-!
# Caches with deadlines

A cache in memory keeps values under keys, each with an optional deadline. An entry whose deadline
has come is dropped when it is asked for. A disabled cache keeps nothing. Instants are counted in
nanoseconds and end with the last second that a signed word holds. A deadline behind them cannot be
told: the call that asks for one does not return, and it leaves a cache that answers nothing any more.
-/

namespace Placeholder

/-- A value and the instant from which on it no longer counts. -/
structure Kept (α : Type) where
  value : α
  deadline : Option Nat := none

def Kept.isExpired {α : Type} (e : Kept α) (now : Nat) : Bool :=
  e.deadline.any (· ≤ now)

inductive Cache (α : Type) where
  | disabled
  | memory (kept : Entries (Kept α))
  | broken

namespace Cache

variable {α : Type}

def empty : Cache α :=
  memory []

def isBroken : Cache α → Bool
  | broken => true
  | _ => false

/-- The value under a key at an instant, and the cache without that entry if it has expired. -/
def get (c : Cache α) (now : Nat) (key : String) : Option α × Cache α :=
  match c with
  | disabled => (none, disabled)
  | memory kept =>
    match kept.get? key with
    | none => (none, c)
    | some e => if e.isExpired now then (none, memory (kept.erase key)) else (some e.value, c)
  | broken => (none, broken)

def has (c : Cache α) (now : Nat) (key : String) : Bool × Cache α :=
  let (found, c) := c.get now key
  (found.isSome, c)

/-- How many instants a second has. -/
def second : Nat :=
  1000000000

def lastInstant : Nat :=
  UInt64.size / 2 * second - 1

/-- The deadline of an entry that is kept for some time from now on, or for ever; none if there is no
such instant. -/
def deadline? (now : Nat) (ttl : Option Nat) : Option (Option Nat) :=
  match ttl with
  | none => some none
  | some ttl => if now + ttl ≤ lastInstant then some (some (now + ttl)) else none

/-- The cache breaks if there is no instant for the deadline. -/
def set (c : Cache α) (now : Nat) (key : String) (value : α) (ttl : Option Nat) : Cache α :=
  match c with
  | disabled => disabled
  | memory kept =>
    match deadline? now ttl with
    | some deadline => memory (kept.insert key ⟨value, deadline⟩)
    | none => broken
  | broken => broken

def forget (c : Cache α) (key : String) : Cache α :=
  match c with
  | disabled => disabled
  | memory kept => memory (kept.erase key)
  | broken => broken

def flush : Cache α → Cache α
  | disabled => disabled
  | memory _ => empty
  | broken => broken

/-- The number of entries, expired ones included as long as nobody has asked for them. -/
def size : Cache α → Nat
  | disabled => 0
  | memory kept => kept.length
  | broken => 0

end Cache

end Placeholder
