/-
The 4096 bytes of memory. Every address is taken modulo 4096, so no access can fail. The sixteen
hexadecimal glyphs stand at the bottom, five bytes each, and programs start at 0x200.
-/
import Chip8.Place

namespace Chip8

abbrev Memory := Vector UInt8 4096

namespace Memory

def size : Nat := 4096

def programStart : Nat := 0x200

/-- The room between `programStart` and the end of memory. -/
def programRoom : Nat := size - programStart

def read (m : Memory) (a : Nat) : UInt8 := m[a % 4096]

def write (m : Memory) (a : Nat) (b : UInt8) : Memory := m.set (a % 4096) b

/-- Writes bytes one after the other, from address `a` upwards. -/
def writeAll (m : Memory) (a : Nat) : List UInt8 → Memory
  | [] => m
  | b :: bs => (m.write a b).writeAll (a + 1) bs

/-- The stretch of `n` cells from `a`, cut off at the ends of memory; a negative address counts
back from the end. -/
def span (m : Memory) (a n : Int) : List UInt8 :=
  let i := Place.cut size a
  (m.toList.drop i).take (Place.cut size (a + n) - i)

def glyphStart : Nat := 0

/-- The number of bytes, one a row, in a glyph. -/
def glyphHeight : Nat := 5

/-- The glyphs of the digits 0 to F: eight columns a row, the leftmost the highest bit. -/
def glyphs : List UInt8 :=
  [0xF0, 0x90, 0x90, 0x90, 0xF0, 0x20, 0x60, 0x20, 0x20, 0x70,
   0xF0, 0x10, 0xF0, 0x80, 0xF0, 0xF0, 0x10, 0xF0, 0x10, 0xF0,
   0x90, 0x90, 0xF0, 0x10, 0x10, 0xF0, 0x80, 0xF0, 0x10, 0xF0,
   0xF0, 0x80, 0xF0, 0x90, 0xF0, 0xF0, 0x10, 0x20, 0x40, 0x40,
   0xF0, 0x90, 0xF0, 0x90, 0xF0, 0xF0, 0x90, 0xF0, 0x10, 0xF0,
   0xF0, 0x90, 0xF0, 0x90, 0x90, 0xE0, 0x90, 0xE0, 0x90, 0xE0,
   0xF0, 0x80, 0x80, 0x80, 0xF0, 0xE0, 0x90, 0x90, 0x90, 0xE0,
   0xF0, 0x80, 0xF0, 0x80, 0xF0, 0xF0, 0x80, 0xF0, 0x80, 0x80]

/-- Memory as it stands at power-on: the glyphs, and zero everywhere else. -/
def initial : Memory := writeAll (Vector.replicate 4096 0) glyphStart glyphs

/-! ## Reading what was written -/

theorem read_write_self (m : Memory) (a : Nat) (b : UInt8) : (m.write a b).read a = b := by
  simp [read, write]

theorem read_write_of_ne (m : Memory) {a c : Nat} (b : UInt8) (h : c % 4096 ≠ a % 4096) :
    (m.write a b).read c = m.read c := by
  simp only [read, write, Vector.getElem_set]
  rw [if_neg (Ne.symm h)]

theorem write_read (m : Memory) (a : Nat) : m.write a (m.read a) = m := by
  simp [read, write]

theorem writeAll_cons (m : Memory) (a : Nat) (b : UInt8) (bs : List UInt8) :
    m.writeAll a (b :: bs) = (m.write a b).writeAll (a + 1) bs := rfl

theorem read_writeAll_of_ne (m : Memory) {a c : Nat} {bs : List UInt8}
    (h : ∀ i < bs.length, c % 4096 ≠ (a + i) % 4096) : (m.writeAll a bs).read c = m.read c := by
  induction bs generalizing m a with
  | nil => rfl
  | cons b bs ih =>
    rw [List.length_cons] at h
    have hfirst : c % 4096 ≠ a % 4096 := h 0 (by omega)
    have hrest : ∀ i < bs.length, c % 4096 ≠ (a + 1 + i) % 4096 := by
      intro i hi
      have hne := h (i + 1) (by omega)
      omega
    rw [writeAll_cons, ih _ hrest, read_write_of_ne _ _ hfirst]

theorem writeAll_append (m : Memory) (a : Nat) (bs cs : List UInt8) :
    m.writeAll a (bs ++ cs) = (m.writeAll a bs).writeAll (a + bs.length) cs := by
  induction bs generalizing m a with
  | nil => rfl
  | cons b bs ih =>
    have hend : a + (b :: bs).length = a + 1 + bs.length := by
      rw [List.length_cons]
      omega
    rw [List.cons_append, writeAll_cons, writeAll_cons, ih, hend]

theorem read_writeAll_add (m : Memory) (a : Nat) {bs : List UInt8} (h : bs.length ≤ 4096) {i : Nat}
    (hi : i < bs.length) : (m.writeAll a bs).read (a + i) = bs[i] := by
  induction bs generalizing m a i with
  | nil => cases hi
  | cons b bs ih =>
    rw [List.length_cons] at h hi
    rw [writeAll_cons]
    cases i with
    | zero =>
      -- the bytes after the first do not come round to its cell
      rw [read_writeAll_of_ne _ (by omega)]
      exact read_write_self m a b
    | succ i =>
      have hcell : a + (i + 1) = a + 1 + i := by omega
      rw [hcell]
      exact ih (m.write a b) (a + 1) (by omega) (by omega)

end Memory

end Chip8
