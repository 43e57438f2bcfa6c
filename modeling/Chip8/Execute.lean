/-
What each instruction does. The program counter already points past the instruction when it is
executed, so a jump sets it, a skip adds to it, and an instruction that has to be repeated moves it
back.
-/
import Chip8.Instruction
import Chip8.State

namespace Chip8

namespace State

/-- The register VX. -/
def v (s : State) (x : Fin 16) : UInt8 := s.registers.read x

def setRegister (s : State) (x : Fin 16) (b : UInt8) : State :=
  { s with registers := s.registers.write x b }

/-- Latches a fault, with the program counter back on the instruction that could not be completed. -/
def stop (s : State) (f : Fault) : State := { s with fault := f.code, pc := s.pc - 2 }

def skip (s : State) (c : Bool) : State := if c then { s with pc := s.pc + 2 } else s

/-- Whether the key is down whose number is the lower half of VX. -/
def keyDown (s : State) (x : Fin 16) : Bool :=
  s.keypad.isDown (Keypad.keyOf (s.v x))

/-- The index register after a transfer of V0 to VX. -/
def indexAfter (s : State) (x : Fin 16) : UInt16 :=
  if s.dialect.indexAdvances then s.index + UInt16.ofNat (x.val + 1) else s.index

/-- The bytes of the sprite at the index register: always sixteen, whatever part of them is drawn. -/
def spriteBytes (s : State) : List UInt8 :=
  (List.range 16).map fun j => s.memory.read (s.index.toNat + j)

/-- The three decimal digits of a byte, the highest first. -/
def decimalDigits (b : UInt8) : List UInt8 := [b / 100, b / 10 % 10, b % 10]

def call (s : State) (target : UInt16) : State :=
  match s.stack.push? s.pc with
  | some stack => { s with stack, pc := target }
  | none => s.stop .stackOverflow

def leave (s : State) : State :=
  match s.stack.pop? with
  | some (stack, a) => { s with stack, pc := a }
  | none => s.stop .stackUnderflow

/-- An operation on two registers. VF is written last, so the flag wins where VX is VF. -/
def alu (s : State) (op : AluOp) (x y : Fin 16) : State :=
  let (r, flag) := op.apply s.dialect (s.v x) (s.v y)
  let s := s.setRegister x r
  match flag with
  | some f => s.setRegister Registers.flag f
  | none => s

def draw (s : State) (x y height : Fin 16) : State :=
  let (screen, collision) :=
    s.screen.draw s.spriteBytes (s.v x).toNat (s.v y).toNat height.val
  { s with screen }.setRegister Registers.flag (AluOp.flagByte collision)

/-- Puts the lowest key that is down into VX; without one, the machine starts to wait and the
program counter goes back onto the instruction. -/
def awaitKey (s : State) (x : Fin 16) : State :=
  match s.keypad.lowest? with
  | some k => s.setRegister x (UInt8.ofNat k)
  | none => { s with pc := s.pc - 2, waiting := true, keyRegister := UInt8.ofNat x }

/-- The sixteen bytes that a store of V0 to VX puts from the index register on: these registers, and
after them the bytes that stand there already. -/
def storeWindow (s : State) (x : Fin 16) : List UInt8 :=
  List.ofFn fun r => if r ≤ x then s.v r else s.memory.read (s.index.toNat + r.val)

def storeRegisters (s : State) (x : Fin 16) : State :=
  { s with
    memory := s.memory.writeAll s.index.toNat (s.storeWindow x)
    index := s.indexAfter x }

def loadRegisters (s : State) (x : Fin 16) : State :=
  { s with
    registers := Vector.ofFn fun r =>
      if r ≤ x then s.memory.read (s.index.toNat + r.val) else s.v r
    index := s.indexAfter x }

def execute (s : State) : Instruction → State
  | .nothing => s
  | .clearScreen => { s with screen := Bitmap.blank }
  | .leave => s.leave
  | .jump target => { s with pc := target }
  | .call target => s.call target
  | .skipIfByte x b => s.skip (s.v x == b)
  | .skipUnlessByte x b => s.skip (s.v x != b)
  | .skipIfSame x y => s.skip (s.v x == s.v y)
  | .skipUnlessSame x y => s.skip (s.v x != s.v y)
  | .setByte x b => s.setRegister x b
  | .addByte x b => s.setRegister x (s.v x + b)
  | .alu op x y => s.alu op x y
  | .setIndex a => { s with index := a }
  | .jumpOffset a x =>
    let r := if s.dialect.jumpAddsVx then x else Registers.first
    { s with pc := a + (s.v r).toUInt16 }
  | .random x mask =>
    { s with randomKey := s.randomKey.next }.setRegister x (s.randomKey.byte &&& mask)
  | .draw x y height => s.draw x y height
  | .skipIfKey x => s.skip (s.keyDown x)
  | .skipUnlessKey x => s.skip (!s.keyDown x)
  | .readDelay x => s.setRegister x s.delay
  | .awaitKey x => s.awaitKey x
  | .setDelay x => { s with delay := s.v x }
  | .setSound x => { s with sound := s.v x }
  | .addIndex x => { s with index := s.index + (s.v x).toUInt16 }
  | .pointGlyph x =>
    let digit := (s.v x).toNat % 16
    { s with index := UInt16.ofNat (Memory.glyphStart + digit * Memory.glyphHeight) }
  | .storeDecimal x =>
    { s with memory := s.memory.writeAll s.index.toNat (decimalDigits (s.v x)) }
  | .storeRegisters x => s.storeRegisters x
  | .loadRegisters x => s.loadRegisters x

end State

end Chip8
