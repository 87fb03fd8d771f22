import GridPuzzle.Text.Decimal

/-!
# Step delays

A delay is a whole number of microseconds. Its text uses the largest of seconds, milliseconds and
microseconds that it fills at least once, with as many decimals as it needs. The clock of a
playback ticks in milliseconds, so a sleep lasts until the first tick at or after its end, as far
as the timer of the runtime keeps to that.
-/

namespace GridPuzzle

/-- The pause after each action, in microseconds. -/
structure Delay where
  micros : Nat
  deriving DecidableEq, Repr, Inhabited

namespace Delay

/-- A delay of whole milliseconds. -/
def ofMillis (ms : Nat) : Delay := ⟨ms * 1000⟩

/-- The whole milliseconds of a delay, rounded down. -/
def millis (d : Delay) : Nat := d.micros / 1000

/-- The clock ticks that a delay fills, rounded up to milliseconds. -/
def ticks (d : Delay) : Nat := (d.micros + 999) / 1000

/-- The digits after the point: `places` of them, less the zeros at the end. -/
def fraction (places part : Nat) : List Char :=
  let ds := Text.digits part
  let padded := List.replicate (places - ds.length) '0' ++ ds
  match (padded.reverse.dropWhile (· == '0')).reverse with
  | [] => []
  | kept => '.' :: kept

/-- The written form of a delay with its unit. -/
def text (d : Delay) : String :=
  if d.micros = 0 then
    "0ns"
  else if d.micros < 1000 then
    Text.natural d.micros ++ "µs"
  else if d.micros < 1000000 then
    Text.natural (d.micros / 1000) ++ String.ofList (fraction 3 (d.micros % 1000)) ++ "ms"
  else
    Text.natural (d.micros / 1000000) ++ String.ofList (fraction 6 (d.micros % 1000000)) ++ "s"

end Delay

/-- How many ticks of the clock the timer of a runtime lets a task sleep for a delay. -/
abbrev Timer := Delay → Nat

namespace Timer

/-- Thirty years of 365 days. -/
def longestSleep : Nat := 30 * 365 * 24 * 60 * 60 * 1000

/-- The timer of the runtime at hand: it wakes a task on the first tick at or after the end of its
delay, but nobody sleeps longer than thirty years. -/
def usual : Timer := fun d => min d.ticks longestSleep

end Timer

end GridPuzzle
