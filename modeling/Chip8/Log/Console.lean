/-
The console log. An entry is a level and a text; a logger decides by the level which entries are
printed, and writes the line of each: the time since the start, the level, its own name, the text.
The clock is read only for a line that shows the time, and a time that cannot be told ends the
printing.
-/
import Chip8.Log.Clock
import Chip8.Log.Level

namespace Chip8.Log

structure Entry where
  level : String
  text : String
  deriving DecidableEq

/-- How entries are filtered and laid out. -/
structure Logger where
  name : String
  /-- Entries of a lower rank than this level are not printed. -/
  level : String
  colours : Bool
  timestamps : Bool

/-- A text moved to the right in a field of eight characters. -/
def rightAligned (s : String) : String :=
  String.ofList (List.replicate (8 - s.length) ' ') ++ s

namespace Logger

/-- A logger with the given settings; colours are for terminals only. -/
def make (name level : String) (useColours terminal timestamps : Bool) : Logger :=
  ⟨name, level, useColours && terminal, timestamps⟩

def shows (l : Logger) (level : String) : Bool := rank l.level ≤ rank level

def levelText (l : Logger) (level : String) : String :=
  let t := "[" ++ rightAligned level ++ "]"
  if l.colours then colour level ++ t ++ plainColour else t

/-- The part of a line that gives the seconds since the start. -/
def timeText (elapsed : Float) : String := "[" ++ rightAligned (Decimal.fixed 2 elapsed) ++ "s]"

/-- A printed line after its time. -/
def body (l : Logger) (e : Entry) : String :=
  l.levelText e.level ++ "[" ++ l.name ++ "] " ++ e.text

end Logger

structure Console where
  logger : Logger
  clock : Clock

namespace Console

/-- The line an entry is printed as, if it is printed. -/
def print (c : Console) (e : Entry) : Console × Except Error (List String) :=
  if c.logger.shows e.level then
    if c.logger.timestamps then
      let (now, clock) := c.clock.read
      ({ c with clock }, (now.since c.clock.start).map fun elapsed =>
        [Logger.timeText elapsed ++ c.logger.body e])
    else (c, .ok [c.logger.body e])
  else (c, .ok [])

/-- The lines a list of entries is printed as, and what ended the printing early, if anything did. -/
def printAll (c : Console) : List Entry → Console × List String × Option Error
  | [] => (c, [], none)
  | e :: es =>
    let (c, line) := c.print e
    match line with
    | .error failure => (c, [], some failure)
    | .ok line =>
      let (c, lines, failure) := c.printAll es
      (c, line ++ lines, failure)

end Console

end Chip8.Log
