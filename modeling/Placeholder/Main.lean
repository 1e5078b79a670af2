import Placeholder.CommandLine
import Std.Time

/-!
# The program

Reads the environment, the clock and the standard input, and writes what a command answers.
-/

namespace Placeholder

open Calendar

def readClock : IO Clock := do
  let t ← Std.Time.PlainDateTime.now
  let now := DateTime.of? t.year t.month.toNat t.day.toNat t.hour.toNat t.minute.toNat
    t.second.toNat t.nanosecond.toNat
  match now with
  | some now => pure { now := now }
  | none => throw (IO.userError "the clock is outside the calendar")

def readEnvironment : IO (List (String × String)) :=
  Configuration.environmentNames.filterMapM fun name => do
    return (← IO.getEnv name).map fun value => (name, value)

def readAll (stream : IO.FS.Stream) : IO String := do
  let mut text := ""
  repeat
    let line ← stream.getLine
    if line.isEmpty then break
    text := text ++ line
  return text

/-- The standard input, unless it is a terminal or the command does not ask for it. -/
def readStdin (words : List String) : IO String := do
  let stdin ← IO.getStdin
  let wanted := (Command.read? words).any Command.readsInput
  if !wanted || (← stdin.isTty) then return "" else readAll stdin

end Placeholder

open Placeholder in
def main (words : List String) : IO UInt32 := do
  let clock ← readClock
  let environment ← readEnvironment
  let stdin ← readStdin words
  let outcome := Command.runWords clock (environment.lookup ·) stdin words
  (← IO.getStdout).putStr outcome.output
  (← IO.getStderr).putStr outcome.errors
  return outcome.code.toUInt32
