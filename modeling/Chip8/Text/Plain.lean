/-
Loosely typed values as text. A text stands for itself, and between quotes where it is part of a
list or of a record.
-/
import Chip8.Datum
import Chip8.Text.Hex
import Chip8.Text.Shortest
import Chip8.Text.Visible

namespace Chip8.Plain

/-- A character by its code point, in two, four or eight digits. -/
def byCodePoint (c : Char) : List Char :=
  let (letter, width) :=
    if c.toNat < 0x100 then ('x', 2) else if c.toNat < 0x10000 then ('u', 4) else ('U', 8)
  '\\' :: letter :: (Hex.digits width c.toNat).map Char.toLower

def quotedChar (quote c : Char) : List Char :=
  if c = quote ∨ c = '\\' then ['\\', c]
  else if c = '\n' then ['\\', 'n']
  else if c = '\r' then ['\\', 'r']
  else if c = '\t' then ['\\', 't']
  else if Visible.isVisible c then [c]
  else byCodePoint c

/-- A text between single quotes, or between double quotes if that saves a backslash. -/
def quoted (s : String) : String :=
  let quote := if s.contains '\'' && !s.contains '"' then '"' else '\''
  String.ofList (quote :: s.toList.flatMap (quotedChar quote) ++ [quote])

mutual

/-- A value as part of another one. -/
def part : Datum → String
  | .null => "None"
  | .bool b => if b then "True" else "False"
  | .int n => toString n
  | .real x => Decimal.real x
  | .text s => quoted s
  | .list items => "[" ++ ", ".intercalate (parts items) ++ "]"
  | .record fields => "\x7b" ++ ", ".intercalate (fieldParts fields) ++ "\x7d"

def parts : List Datum → List String
  | [] => []
  | d :: ds => part d :: parts ds

def fieldParts : List (String × Datum) → List String
  | [] => []
  | (name, d) :: ds => (quoted name ++ ": " ++ part d) :: fieldParts ds

end

def text : Datum → String
  | .text s => s
  | d => part d

end Chip8.Plain
