/-
The ways in which a running program can stop the machine, and the number by which the machine's
fault latch remembers each. The latch holds 0 while the machine is healthy.
-/

namespace Chip8

/-- Why an instruction could not be completed. -/
inductive Fault where
  /-- A call with all sixteen return addresses in use. -/
  | stackOverflow
  /-- A return with no return address left. -/
  | stackUnderflow
  deriving DecidableEq

namespace Fault

/-- The number the fault latch holds. -/
def code : Fault → UInt8
  | stackOverflow => 1
  | stackUnderflow => 2

def ofCode? (c : UInt8) : Option Fault :=
  if c = 1 then some stackOverflow else if c = 2 then some stackUnderflow else none

def reason : Fault → String
  | stackOverflow => "stack overflow"
  | stackUnderflow => "stack underflow"

theorem ofCode?_code (f : Fault) : ofCode? f.code = some f := by
  cases f <;> rfl

theorem code_ne_zero (f : Fault) : f.code ≠ 0 := by
  cases f <;> decide

end Fault

end Chip8
