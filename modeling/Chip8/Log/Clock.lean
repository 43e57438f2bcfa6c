/-
The clock of a log, given by its readings. A reading is a whole number of seconds of any size or a
fraction; the time between two of them is exact if both are whole, and rounded once to a fraction.
-/
import Chip8.Error
import Chip8.Text.Decimal

namespace Chip8.Log

inductive Reading where
  | whole (seconds : Int)
  | fraction (seconds : Float)

namespace Reading

/-- A whole number as the nearest fraction. -/
def nearest (n : Int) : Except Error Float :=
  match Decimal.nearest? n with
  | some x => .ok x
  | none => .error .integerTooWide

def toFraction : Reading → Except Error Float
  | whole n => nearest n
  | fraction x => .ok x

def since : Reading → Reading → Except Error Float
  | whole now, whole start => nearest (now - start)
  | now, start => do return (← now.toFraction) - (← start.toFraction)

end Reading

/-- A clock; the last of its readings stays. -/
structure Clock where
  /-- The reading when the log was opened. -/
  start : Reading
  latest : Reading
  later : List Reading

namespace Clock

/-- The clock with the given readings, of which the first opens the log. -/
def ofReadings : List Reading → Clock
  | [] => ⟨.whole 0, .whole 0, []⟩
  | t :: ts => ⟨t, t, ts⟩

def read (c : Clock) : Reading × Clock :=
  match c.later with
  | [] => (c.latest, c)
  | t :: ts => (t, { c with latest := t, later := ts })

end Clock

end Chip8.Log
