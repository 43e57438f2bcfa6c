/-
The instruction set, and the reading of opcodes. Reading is total: an opcode that is not assigned
reads as `nothing`. The comment on each constructor gives the opcodes it stands for.
-/
import Chip8.Alu
import Chip8.Opcode

namespace Chip8

inductive Instruction where
  /-- Does nothing: every opcode that stands for no other instruction. -/
  | nothing
  /-- 00E0 -/
  | clearScreen
  /-- 00EE -/
  | leave
  /-- 1NNN -/
  | jump (target : UInt16)
  /-- 2NNN -/
  | call (target : UInt16)
  /-- 3XNN: skips if VX is NN. -/
  | skipIfByte (x : Fin 16) (byte : UInt8)
  /-- 4XNN: skips unless VX is NN. -/
  | skipUnlessByte (x : Fin 16) (byte : UInt8)
  /-- 5XY?: skips if VX is VY. -/
  | skipIfSame (x y : Fin 16)
  /-- 9XY?: skips unless VX is VY. -/
  | skipUnlessSame (x y : Fin 16)
  /-- 6XNN -/
  | setByte (x : Fin 16) (byte : UInt8)
  /-- 7XNN: adds NN to VX and leaves VF alone. -/
  | addByte (x : Fin 16) (byte : UInt8)
  /-- 8XY0 to 8XY7 and 8XYE -/
  | alu (op : AluOp) (x y : Fin 16)
  /-- ANNN -/
  | setIndex (address : UInt16)
  /-- BNNN: jumps to NNN plus V0, or plus VX in some dialects. -/
  | jumpOffset (base : UInt16) (x : Fin 16)
  /-- CXNN: sets VX to a random byte masked by NN. -/
  | random (x : Fin 16) (mask : UInt8)
  /-- DXYN: draws the N rows at the index register, with its corner at VX, VY. -/
  | draw (x y height : Fin 16)
  /-- EX9E: skips if the key VX is down. -/
  | skipIfKey (x : Fin 16)
  /-- EXA1: skips unless the key VX is down. -/
  | skipUnlessKey (x : Fin 16)
  /-- FX07 -/
  | readDelay (x : Fin 16)
  /-- FX0A: waits for a key. -/
  | awaitKey (x : Fin 16)
  /-- FX15 -/
  | setDelay (x : Fin 16)
  /-- FX18 -/
  | setSound (x : Fin 16)
  /-- FX1E -/
  | addIndex (x : Fin 16)
  /-- FX29: points the index register to the glyph of the digit VX. -/
  | pointGlyph (x : Fin 16)
  /-- FX33: stores the three decimal digits of VX. -/
  | storeDecimal (x : Fin 16)
  /-- FX55: stores V0 to VX. -/
  | storeRegisters (x : Fin 16)
  /-- FX65: loads V0 to VX. -/
  | loadRegisters (x : Fin 16)
  deriving DecidableEq

namespace Instruction

/-- The opcodes of the family 0. -/
def decodeSystem (o : Opcode) : Instruction :=
  if o.word = 0x00E0 then clearScreen else if o.word = 0x00EE then leave else nothing

/-- The opcodes of the family E, by their low byte. -/
def decodeKey (o : Opcode) : Instruction :=
  if o.byte = 0x9E then skipIfKey o.x else if o.byte = 0xA1 then skipUnlessKey o.x else nothing

/-- The opcodes of the family F, by their low byte. -/
def decodeMisc (o : Opcode) : Instruction :=
  match o.byte.toNat with
  | 0x07 => readDelay o.x
  | 0x0A => awaitKey o.x
  | 0x15 => setDelay o.x
  | 0x18 => setSound o.x
  | 0x1E => addIndex o.x
  | 0x29 => pointGlyph o.x
  | 0x33 => storeDecimal o.x
  | 0x55 => storeRegisters o.x
  | 0x65 => loadRegisters o.x
  | _ => nothing

/-- The instruction an opcode stands for. -/
def decode (o : Opcode) : Instruction :=
  match o.family.val with
  | 0x0 => decodeSystem o
  | 0x1 => jump o.address
  | 0x2 => call o.address
  | 0x3 => skipIfByte o.x o.byte
  | 0x4 => skipUnlessByte o.x o.byte
  | 0x5 => skipIfSame o.x o.y
  | 0x6 => setByte o.x o.byte
  | 0x7 => addByte o.x o.byte
  | 0x8 => match AluOp.ofNibble? o.n with
    | some op => alu op o.x o.y
    | none => nothing
  | 0x9 => skipUnlessSame o.x o.y
  | 0xA => setIndex o.address
  | 0xB => jumpOffset o.address o.x
  | 0xC => random o.x o.byte
  | 0xD => draw o.x o.y o.n
  | 0xE => decodeKey o
  | _ => decodeMisc o

end Instruction

end Chip8
