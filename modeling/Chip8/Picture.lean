/-
Colour pictures of a bitmap, for whoever shows the screen: each cell becomes a square of equal
pixels, in one colour for the cells that are on and another for the rest.
-/
import Chip8.Bitmap
import Chip8.Number

namespace Chip8

/-- A colour by its red, green and blue parts. -/
structure Rgb where
  red : UInt8
  green : UInt8
  blue : UInt8
  deriving DecidableEq

namespace Rgb

/-- The colour with the given components; a single component stands for all three. -/
def ofComponents (ds : List Datum) : Except Error Rgb :=
  match ds.mapM Datum.byte with
  | .error e => .error e
  | .ok [a] => .ok ⟨a, a, a⟩
  | .ok [r, g, b] => .ok ⟨r, g, b⟩
  | .ok _ => .error .componentCount

end Rgb

structure Picture where
  height : Nat
  width : Nat
  rows : List (List Rgb)

namespace Picture

/-- The picture with one pixel a cell. -/
def ofBitmap {h w : Nat} (b : Bitmap h w) (on off : Rgb) : Picture :=
  ⟨h, w, b.toList.map fun row => row.toList.map fun c => if c then on else off⟩

def repeatEach {α : Type} (s : Nat) (xs : List α) : List α := xs.flatMap (List.replicate s)

/-- The picture with `s` rows and `s` columns for each one. -/
def enlarge (p : Picture) (s : Nat) : Picture :=
  ⟨p.height * s, p.width * s, repeatEach s (p.rows.map (repeatEach s))⟩

/-- The scale a number stands for, which for a fraction is what stands before its point. -/
def scaleOf : Datum → Except Error Int
  | .bool b => .ok (if b then 1 else 0)
  | .int n => if 1 < n then Datum.within64 n else .ok n
  | .real x => if 1 < x then do Datum.within64 (← Datum.truncate x) else .ok 1
  | _ => .error .notNumber

/-- The number of bytes from which on no memory holds a picture. -/
def memoryLimit : Nat := 0x4000000000

/-- The number of bytes from which on none can be counted. -/
def countLimit : Nat := 0x8000000000000000

/-- Refuses a picture of so many rows and columns, three bytes a pixel, that is too large. -/
def room (height width : Nat) : Except Error Unit :=
  let size := height * width * 3
  if countLimit ≤ size then .error .tooManyPixels
  else if memoryLimit ≤ size then .error .noPictureRoom
  else .ok ()

/-- The scale for a bitmap of `h` rows and `w` columns. First its rows are repeated and then its
columns, and there has to be room for both. -/
def scaleFor (h w : Nat) (d : Datum) : Except Error Int := do
  let scale ← scaleOf d
  if 1 < scale then
    room (h * scale.toNat) w
    room (h * scale.toNat) (w * scale.toNat)
  return scale

/-- The picture of a bitmap at a scale; a scale below 2 leaves one pixel a cell. -/
def render {h w : Nat} (b : Bitmap h w) (scale : Int) (on off : Rgb) : Picture :=
  let p := ofBitmap b on off
  if 1 < scale then p.enlarge scale.toNat else p

/-- The scale and the colours of a picture for which nothing else is asked. -/
def defaultScale : Int := 8

def defaultOn : Rgb := ⟨0, 255, 0⟩

def defaultOff : Rgb := ⟨0, 0, 0⟩

end Picture

end Chip8
