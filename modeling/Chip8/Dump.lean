/-
What a driver sees of a state: a snapshot of its registers, stack and keys, and a table of them for
reading, four registers a line.
-/
import Chip8.State
import Chip8.Text.Hex

namespace Chip8

/-- The registers, the stack and the flags of a state; memory and screen are left out. -/
structure Snapshot where
  registers : List UInt8
  index : UInt16
  pc : UInt16
  delay : UInt8
  sound : UInt8
  /-- The return addresses, oldest first. -/
  stack : List UInt16
  keypad : List Bool
  waiting : Bool
  keyRegister : UInt8
  fault : UInt8
  deriving DecidableEq

namespace State

def snapshot (s : State) : Snapshot where
  registers := s.registers.toList
  index := s.index
  pc := s.pc
  delay := s.delay
  sound := s.sound
  stack := s.stack.entries
  keypad := s.keypad.toList
  waiting := s.waiting
  keyRegister := s.keyRegister
  fault := s.fault

end State

namespace Snapshot

/-- Register `j` as it is shown, its number and its byte. -/
def registerText (s : Snapshot) (j : Nat) : String :=
  "V" ++ Hex.ofNat 1 j ++ ":" ++ Hex.ofNat 2 (s.registers.getD j 0).toNat

/-- The line of the four registers from `4 * k` on. -/
def registerLine (s : Snapshot) (k : Nat) : String :=
  " ".intercalate ((List.range 4).map fun j => s.registerText (4 * k + j))

def pointerLine (s : Snapshot) : String :=
  "I:" ++ Hex.ofNat 4 s.index.toNat ++ " PC:" ++ Hex.ofNat 4 s.pc.toNat ++
    " DT:" ++ Hex.ofNat 2 s.delay.toNat ++ " ST:" ++ Hex.ofNat 2 s.sound.toNat

def stackLine (s : Snapshot) : String :=
  "Stack[" ++ toString s.stack.length ++ "]: " ++
    if s.stack.isEmpty then "-" else " ".intercalate (s.stack.map fun a => Hex.ofNat 3 a.toNat)

/-- The lines of the table; the last one is there only while the machine waits for a key. -/
def lines (s : Snapshot) : List String :=
  (List.range 4).map s.registerLine ++ [s.pointerLine, s.stackLine] ++
    if s.waiting then ["Waiting for key into V" ++ Hex.ofNat 1 s.keyRegister.toNat] else []

def format (s : Snapshot) : String := "\n".intercalate s.lines

end Snapshot

end Chip8
