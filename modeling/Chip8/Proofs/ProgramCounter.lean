/-
Where a step takes the program counter. The fetch moves it past the opcode; the instruction may then set it, add to
it, or move it back onto the opcode. What comes of this is stated in exact integers as `nextPc`, from the opcode, the
registers, the keypad and the return addresses on the stack, also where the program counter wraps within the step.
-/
import Chip8.Proofs.Writes

namespace Chip8.State

instance (s : State) (o : Opcode) : Decidable (s.Skips o) :=
  inferInstanceAs (Decidable (
    (o.family.val = 0x3 ∧ s.v o.x = o.byte) ∨ (o.family.val = 0x4 ∧ s.v o.x ≠ o.byte) ∨
    (o.family.val = 0x5 ∧ s.v o.x = s.v o.y) ∨ (o.family.val = 0x9 ∧ s.v o.x ≠ s.v o.y) ∨
    (o.OneOf [.low 0xE 0x9E] ∧ s.keypad.isDown ⟨(s.v o.x).toNat % 16, Nat.mod_lt _ (by decide)⟩ = true) ∨
    (o.OneOf [.low 0xE 0xA1] ∧ s.keypad.isDown ⟨(s.v o.x).toNat % 16, Nat.mod_lt _ (by decide)⟩ = false)))

instance (s : State) (o : Opcode) : Decidable (s.Suspends o) :=
  inferInstanceAs (Decidable (o.OneOf [.low 0xF 0x0A] ∧ ∀ k, s.keypad.isDown k = false))

variable {s : State}

/-! ## Opcodes that turn -/

end Chip8.State
