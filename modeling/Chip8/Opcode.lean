/-
Opcodes are 16-bit words. The highest four bits name the family; the lower bits hold up to three
four-bit fields, written X, Y and N, or a byte NN, or an address NNN.
-/
import Chip8.Integer

namespace Chip8

structure Opcode where
  word : UInt16
  deriving DecidableEq

namespace Opcode

def family (o : Opcode) : Fin 16 := ⟨o.word.toNat / 0x1000, by have := o.word.toNat_lt; omega⟩

def x (o : Opcode) : Fin 16 := ⟨o.word.toNat / 0x100 % 16, by omega⟩

def y (o : Opcode) : Fin 16 := ⟨o.word.toNat / 0x10 % 16, by omega⟩

def n (o : Opcode) : Fin 16 := ⟨o.word.toNat % 16, by omega⟩

/-- The byte NN. -/
def byte (o : Opcode) : UInt8 := o.word.toUInt8

/-- The address NNN. -/
def address (o : Opcode) : UInt16 := o.word % 0x1000

/-- The opcode an integer wraps to. -/
def ofInt (k : Int) : Except Error Opcode := do
  let k ← narrow k
  return ⟨UInt16.ofInt k⟩

/-- The opcode of two bytes, the first the higher. -/
def ofBytes (high low : UInt8) : Opcode := ⟨UInt16.ofNat (high.toNat * 256 + low.toNat)⟩

theorem byte_toNat (o : Opcode) : o.byte.toNat = o.word.toNat % 256 := by
  simp [byte]

end Opcode

end Chip8
