/-
The whole state of the machine, at power-on and after a reset. The dialect and the random key are
part of the state, and a reset keeps them: it starts the program over, not the random numbers.
-/
import Chip8.Alu
import Chip8.CallStack
import Chip8.Fault
import Chip8.Keypad
import Chip8.Memory
import Chip8.RandomKey
import Chip8.Registers
import Chip8.Screen

namespace Chip8

structure State where
  dialect : Dialect
  randomKey : RandomKey
  memory : Memory
  pc : UInt16
  screen : Screen
  stack : CallStack
  delay : UInt8
  sound : UInt8
  keypad : Keypad
  registers : Registers
  index : UInt16
  waiting : Bool
  /-- The register that takes the key waited for last. -/
  keyRegister : UInt8
  /-- The fault latch: 0, or the code of the fault that stopped the machine. -/
  fault : UInt8

namespace State

/-- A machine just switched on. -/
def powerOn (d : Dialect) (k : RandomKey) : State where
  dialect := d
  randomKey := k
  memory := Memory.initial
  pc := 0x200
  screen := Bitmap.blank
  stack := CallStack.empty
  delay := 0
  sound := 0
  keypad := Keypad.released
  registers := Registers.cleared
  index := 0
  waiting := false
  keyRegister := 0
  fault := 0

def reset (s : State) : State := powerOn s.dialect s.randomKey

end State

end Chip8
