/-
The arithmetic of two registers: what an operation leaves in VX and, for the operations that report
something, in VF. Dialects of the machine differ in whether the bitwise operations clear VF and in
which register the shifts read.
-/

namespace Chip8

/-- The points on which dialects of the machine differ. -/
structure Dialect where
  /-- Storing and loading registers moves the index register past the last of them. -/
  indexAdvances : Bool
  /-- Shifts read VY. -/
  shiftsReadVy : Bool
  /-- The bitwise operations clear VF. -/
  logicClearsFlag : Bool
  /-- The jump with an offset adds VX, and not V0. -/
  jumpAddsVx : Bool
  deriving DecidableEq

inductive AluOp where
  | copy
  | or
  | and
  | xor
  | add
  /-- VX less VY. -/
  | subtract
  | shiftRight
  /-- VY less VX. -/
  | subtractFrom
  | shiftLeft
  deriving DecidableEq

namespace AluOp

def ofNibble? (n : Fin 16) : Option AluOp :=
  match n.val with
  | 0x0 => some copy
  | 0x1 => some or
  | 0x2 => some and
  | 0x3 => some xor
  | 0x4 => some add
  | 0x5 => some subtract
  | 0x6 => some shiftRight
  | 0x7 => some subtractFrom
  | 0xE => some shiftLeft
  | _ => none

def flagByte (b : Bool) : UInt8 := if b then 1 else 0

/-- The new VX and, if the operation sets it, the new VF, from the old VX and VY. The flag is the
carry of an addition, the absence of a borrow together with a difference of not zero, or the bit
that a shift moves out. -/
def apply (op : AluOp) (d : Dialect) (a b : UInt8) : UInt8 × Option UInt8 :=
  let bitwise (r : UInt8) := (r, if d.logicClearsFlag then some 0 else none)
  let shifted := if d.shiftsReadVy then b else a
  match op with
  | copy => (b, none)
  | or => bitwise (a ||| b)
  | and => bitwise (a &&& b)
  | xor => bitwise (a ^^^ b)
  | add => (a + b, some (flagByte (255 < a.toNat + b.toNat)))
  | subtract => (a - b, some (flagByte (b < a)))
  | shiftRight => (shifted >>> 1, some (shifted &&& 1))
  | subtractFrom => (b - a, some (flagByte (a < b)))
  | shiftLeft => (shifted <<< 1, some (shifted >>> 7))

end AluOp

end Chip8
