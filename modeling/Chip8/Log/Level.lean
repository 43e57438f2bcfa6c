/-
Log levels. A level is a name in any case; five names have a rank of their own, and every other name
ranks as INFO.
-/

namespace Chip8.Log

/-- The upper case of a letter of a level's name. The dotless i and the long s have capitals among
the plain letters. -/
def upperChar (c : Char) : Char :=
  if c = '\u0131' then 'I' else if c = '\u017f' then 'S' else c.toUpper

def upper (level : String) : String := level.map upperChar

def ranks : List (String × Nat) :=
  [("DEBUG", 0), ("INFO", 1), ("WARNING", 2), ("ERROR", 3), ("CRITICAL", 4)]

def rank (level : String) : Nat := (ranks.lookup (upper level)).getD 1

/-- What switches a terminal to a colour, by the name of the level or, for plain text, RESET. -/
def colours : List (String × String) :=
  [("DEBUG", "\x1b[36m"), ("INFO", "\x1b[32m"), ("WARNING", "\x1b[33m"), ("ERROR", "\x1b[31m"),
   ("CRITICAL", "\x1b[35m"), ("RESET", "\x1b[0m")]

/-- The colour of a level; nothing for a name without one. -/
def colour (level : String) : String := (colours.lookup (upper level)).getD ""

/-- What switches a terminal back to plain text. -/
def plainColour : String := "\x1b[0m"

end Chip8.Log
