/-
The screen: 64 columns and 32 rows. Coordinates are integers without bounds and wrap around both
edges, cell by cell, so a sprite that leaves the screen on one side comes back on the other.

A sprite is drawn by turning over every cell it covers; a draw that turns a cell off collides.
-/
import Chip8.Bitmap
import Chip8.Integer

namespace Chip8

abbrev Screen := Bitmap 32 64

namespace Screen

/-- The column and the row a coordinate wraps to. -/
def column (x : Int) : Fin 64 := ⟨(x % 64).toNat, by omega⟩

def row (y : Int) : Fin 32 := ⟨(y % 32).toNat, by omega⟩

def isSet (s : Screen) (x y : Int) : Bool := s.cell (row y) (column x)

/-- Turns one cell over, and says whether it was on. -/
def toggle (s : Screen) (x y : Int) : Screen × Bool :=
  (s.flip (row y) (column x), s.isSet x y)

/-- Row `j` of a sprite; the last row stands for all rows after it. -/
def spriteRow (rows : List UInt8) (j : Nat) : UInt8 := rows.getD (min j (rows.length - 1)) 0

/-- How far a place lies past the corner of a sprite, counted around an edge of `n` cells. The difference
is one of 32 bits and may wrap. -/
def offset (n place : Nat) (corner : Int) : Nat :=
  ((Int32.ofNat place - Int32.ofInt corner).toInt % n).toNat

/-- The cells a sprite covers: its first `height` rows, with the upper left corner at `x` and `y`,
eight columns a row, the leftmost the highest bit. -/
def sprite (rows : List UInt8) (x y height : Int) : Screen :=
  Bitmap.ofFn fun r c =>
    let i := offset 64 c x
    let j := offset 32 r y
    decide (i < 8) && decide ((j : Int) < height) && (spriteRow rows j).toNat.testBit (7 - min i 7)

/-- Draws a sprite, and says whether it collides. -/
def draw (s : Screen) (rows : List UInt8) (x y height : Int) : Screen × Bool :=
  let covered := sprite rows x y height
  (s.xor covered, s.meets covered)

/-! ## From outside -/

/-- Whether a sprite can be drawn at all: its measures fit 32 bits, and it has a row. -/
def drawable (rows : List UInt8) (x y height : Int) : Except Error Unit := do
  let _ ← narrow x
  let _ ← narrow y
  let _ ← narrow height
  if rows.isEmpty then .error .noRows else .ok ()

def spriteOf (rows : List UInt8) (x y height : Int) : Except Error Screen := do
  drawable rows x y height
  return sprite rows x y height

def drawOf (s : Screen) (rows : List UInt8) (x y height : Int) : Except Error (Screen × Bool) := do
  drawable rows x y height
  return s.draw rows x y height

end Screen

end Chip8
