/-
The cycle of the machine: fetch an opcode, execute it, and so on; and, sixty times a second, a tick
of the two timers. A stopped machine does not move. A machine that waits for a key looks at the
keypad and does nothing else until a key is down.
-/
import Chip8.Execute

namespace Chip8.State

/-- The opcode the program counter points to. -/
def peek (s : State) : Opcode :=
  Opcode.ofBytes (s.memory.read s.pc.toNat) (s.memory.read (s.pc.toNat + 1))

/-- Moves the program counter past the opcode it points to. -/
def advance (s : State) : State := { s with pc := s.pc + 2 }

/-- Fetches one opcode and executes it. -/
def cycle (s : State) : State := s.advance.execute (Instruction.decode s.peek)

/-- Looks for the key the machine waits for. A register number past VF takes nothing. -/
def pollKey (s : State) : State :=
  match s.keypad.lowest? with
  | some k =>
    { s with
      registers := if h : s.keyRegister.toNat < 16 then
          s.registers.write ⟨s.keyRegister.toNat, h⟩ (UInt8.ofNat k)
        else s.registers
      waiting := false
      pc := s.pc + 2 }
  | none => s

def step (s : State) : State :=
  if s.fault ≠ 0 then s else if s.waiting then s.pollKey else s.cycle

def tick (s : State) : State :=
  { s with
    delay := if s.delay = 0 then 0 else s.delay - 1
    sound := if s.sound = 0 then 0 else s.sound - 1 }

def run : Nat → State → State
  | 0, s => s
  | n + 1, s => run n s.step

/-- One sixtieth of a second: so many steps, then a tick. -/
def frame (n : Nat) (s : State) : State := (run n s).tick

end Chip8.State
