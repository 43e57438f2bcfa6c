/-
The register file: sixteen bytes V0..VF, of which the last doubles as the flag that instructions
leave behind. The machine names registers by `Fin 16`; `writeAt`, `setFlag` and `readAt` take
integers from outside.
-/
import Chip8.Integer
import Chip8.Place

namespace Chip8

abbrev Registers := Vector UInt8 16

namespace Registers

/-- The register that holds flags, VF. -/
def flag : Fin 16 := 15

def first : Fin 16 := ⟨0, by decide⟩

def cleared : Registers := Vector.replicate 16 0

def read (v : Registers) (x : Fin 16) : UInt8 := v.get x

def write (v : Registers) (x : Fin 16) (b : UInt8) : Registers := Place.put v x b

/-! ## From outside -/

/-- A place to write to, which may take up to 64 bits but of which the lower 32 count. They are
signed, save those of a number that only fits 64 bits without a sign. -/
def target (place : Int) : Except Error Int :=
  if fits64 place then .ok (Int32.ofInt place).toInt
  else if 0 ≤ place ∧ place < 0x10000000000000000 then .ok (place % 0x100000000)
  else .error .integerTooWide

/-- Writes an integer, modulo 256, into the register a place names; a place outside the file drops it. -/
def writeAt (v : Registers) (place value : Int) : Except Error Registers := do
  let k ← narrow value
  let place ← target place
  return match Place.cell? 16 place with
    | some x => v.write x (UInt8.ofInt k)
    | none => v

/-- Sets VF to an integer modulo 256. -/
def setFlag (v : Registers) (value : Int) : Except Error Registers := do
  let k ← narrow value
  return v.write flag (UInt8.ofInt k)

/-- The register nearest to the place an integer of 32 bits names. -/
def readAt (v : Registers) (place : Int) : Except Error UInt8 := do
  return v.read (Place.nearest 15 (← narrow place))

/-! ## Reading what was written -/

theorem ext {v w : Registers} (h : ∀ x, v.read x = w.read x) : v = w :=
  Place.ext h

@[simp] theorem read_write_self (v : Registers) (x : Fin 16) (b : UInt8) : (v.write x b).read x = b := by
  simp [read, write]

theorem read_write_of_ne (v : Registers) {x r : Fin 16} (b : UInt8) (h : r ≠ x) :
    (v.write x b).read r = v.read r :=
  Place.get_put_of_ne v b h

/-- Of two bytes written into one register the second stays. -/
theorem write_write (v : Registers) (x : Fin 16) (b c : UInt8) : (v.write x b).write x c = v.write x c := by
  refine ext fun r => ?_
  by_cases h : r = x
  · rw [h, read_write_self, read_write_self]
  · rw [read_write_of_ne _ _ h, read_write_of_ne _ _ h, read_write_of_ne _ _ h]

end Registers

end Chip8
