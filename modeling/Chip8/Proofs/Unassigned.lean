/-
Opcodes that are not assigned. Outside the families 5 and 9, an opcode that fits no row of the table of
opcodes does nothing: the program counter goes past it, and all else stays. In these two families the
table only has the opcodes that end in 0. The machine does not look at that digit, and takes the others
for them: it skips the next instruction where the two registers are the same, or are not.
-/
import Chip8.Proofs.Outcome

namespace Chip8

/-! ## The table of opcodes -/

/-- What a row of the table fixes in an opcode. -/
inductive Pattern where
  | word (w : UInt16)
  | family (f : Nat)
  /-- The family and the last digit. -/
  | last (f n : Nat)
  /-- The family and the low byte. -/
  | low (f byte : Nat)
  deriving DecidableEq

namespace Pattern

def Fits (o : Opcode) : Pattern → Prop
  | word w => o.word = w
  | family f => o.family.val = f
  | last f n => o.family.val = f ∧ o.n.val = n
  | low f byte => o.family.val = f ∧ o.byte.toNat = byte

instance (o : Opcode) : DecidablePred (Fits o)
  | word w => inferInstanceAs (Decidable (o.word = w))
  | family f => inferInstanceAs (Decidable (o.family.val = f))
  | last f n => inferInstanceAs (Decidable (o.family.val = f ∧ o.n.val = n))
  | low f byte => inferInstanceAs (Decidable (o.family.val = f ∧ o.byte.toNat = byte))

/-- The rows of the opcodes that do something. -/
def table : List Pattern :=
  [word 0x00E0, word 0x00EE, family 0x1, family 0x2, family 0x3, family 0x4, last 0x5 0x0, family 0x6, family 0x7,
   last 0x8 0x0, last 0x8 0x1, last 0x8 0x2, last 0x8 0x3, last 0x8 0x4, last 0x8 0x5, last 0x8 0x6, last 0x8 0x7,
   last 0x8 0xE, last 0x9 0x0, family 0xA, family 0xB, family 0xC, family 0xD, low 0xE 0x9E, low 0xE 0xA1,
   low 0xF 0x07, low 0xF 0x0A, low 0xF 0x15, low 0xF 0x18, low 0xF 0x1E, low 0xF 0x29, low 0xF 0x33, low 0xF 0x55,
   low 0xF 0x65]

end Pattern

def Opcode.Assigned (o : Opcode) : Prop := ∃ p ∈ Pattern.table, p.Fits o

instance (o : Opcode) : Decidable o.Assigned := inferInstanceAs (Decidable (∃ p ∈ Pattern.table, p.Fits o))

/-! ## Reading opcodes that are not in the table -/

namespace Instruction

theorem last_mem_table {n : Fin 16} {op : AluOp} (h : AluOp.ofNibble? n = some op) :
    .last 0x8 n.val ∈ Pattern.table := by
  have hall : ∀ n : Fin 16, (AluOp.ofNibble? n).isSome → .last 0x8 n.val ∈ Pattern.table := by decide
  exact hall n (by rw [h]; rfl)

/-- Whatever encodes an instruction is in the table, save for the last digit in the families 5 and 9. -/
theorem assigned_of_encodes {o : Opcode} {i : Instruction} (h : o.Encodes i) (h5 : o.family.val ≠ 0x5)
    (h9 : o.family.val ≠ 0x9) : o.Assigned := by
  cases i with
  | nothing => exact absurd h id
  | clearScreen => exact ⟨.word 0x00E0, by decide, h⟩
  | leave => exact ⟨.word 0x00EE, by decide, h⟩
  -- here the table asks for a last digit that the machine does not look at
  | skipIfSame => exact absurd h.1 h5
  | skipUnlessSame => exact absurd h.1 h9
  | alu op x y => exact ⟨.last 0x8 o.n.val, last_mem_table h.2.1, h.1, rfl⟩
  | jump | call | skipIfByte | skipUnlessByte | setByte | addByte | setIndex | jumpOffset | random | draw =>
    exact ⟨.family _, by decide, h.1⟩
  | skipIfKey | skipUnlessKey | readDelay | awaitKey | setDelay | setSound | addIndex | pointGlyph | storeDecimal
      | storeRegisters | loadRegisters => exact ⟨.low _ _, by decide, h.1, h.2.1⟩

end Instruction

/-! ## Their steps -/

namespace State

variable {s : State}

theorem skip_advance (s : State) (c : Bool) :
    s.advance.skip c = { s with pc := if c then s.pc + 4 else s.pc + 2 } := by
  cases c with
  | false => rfl
  | true => exact congrArg (fun pc => { s with pc }) (UInt16.add_assoc s.pc 2 2)

/-- An opcode outside the table does nothing, save in the families 5 and 9, where the machine takes it for
the one that ends in 0 and skips the next instruction if VX and VY are the same, or are not. -/
theorem step_unassigned (hr : s.Running) (h : ¬ s.peek.Assigned) :
    (s.peek.family.val ≠ 0x5 → s.peek.family.val ≠ 0x9 → s.step = { s with pc := s.pc + 2 }) ∧
    (s.peek.family.val = 0x5 →
      s.step = { s with pc := if s.v s.peek.x = s.v s.peek.y then s.pc + 4 else s.pc + 2 }) ∧
    (s.peek.family.val = 0x9 →
      s.step = { s with pc := if s.v s.peek.x ≠ s.v s.peek.y then s.pc + 4 else s.pc + 2 }) := by
  rw [step_of_running hr, cycle]
  refine ⟨fun h5 h9 => ?_, fun h5 => ?_, fun h9 => ?_⟩
  · have hi : Instruction.decode s.peek = .nothing :=
      Instruction.decode_eq_nothing_iff.2 fun i hi => h (Instruction.assigned_of_encodes hi h5 h9)
    rw [hi]
    rfl
  · have hi : Instruction.decode s.peek = .skipIfSame s.peek.x s.peek.y :=
      Instruction.decode_of_encodes ⟨h5, rfl, rfl⟩
    rw [hi]
    refine (s.skip_advance _).trans ?_
    simp only [beq_iff_eq]
    rfl
  · have hi : Instruction.decode s.peek = .skipUnlessSame s.peek.x s.peek.y :=
      Instruction.decode_of_encodes ⟨h9, rfl, rfl⟩
    rw [hi]
    refine (s.skip_advance _).trans ?_
    simp only [bne_iff_ne]
    rfl

/-- A machine at 9021 before the wrap of the program counter, with V0 and V2 not the same. -/
def atOpenNine : State :=
  { powerOn ⟨true, true, true, true⟩ ⟨0, 0⟩ with
    pc := 0xFFFE
    registers := Registers.cleared.write Registers.first 7 }.withOpcode 0x90 0x21

theorem step_unassigned_at_wrap : ¬ atOpenNine.peek.Assigned ∧ atOpenNine.step = { atOpenNine with pc := 2 } := by
  have hpeek : atOpenNine.peek = ⟨0x9021⟩ := peek_withOpcode ..
  have hopen : ¬ atOpenNine.peek.Assigned := by
    rw [hpeek]
    decide
  obtain ⟨-, -, h9⟩ := step_unassigned (s := atOpenNine) ⟨rfl, rfl⟩ hopen
  refine ⟨hopen, ?_⟩
  rw [h9 (by rw [hpeek]; rfl), hpeek]
  rfl

/-- A machine at 5121 with all registers the same. -/
def atOpenFive : State := (powerOn ⟨false, false, false, false⟩ ⟨0, 0⟩).withOpcode 0x51 0x21

/-- Not every opcode outside the table does nothing: 5121 is outside, and skips the next instruction. -/
theorem unassigned_skips : ¬ ∀ s : State, s.Running → ¬ s.peek.Assigned → s.step = { s with pc := s.pc + 2 } := by
  intro hall
  have hpeek : atOpenFive.peek = ⟨0x5121⟩ := peek_withOpcode ..
  have hr : atOpenFive.Running := ⟨rfl, rfl⟩
  have hskip : atOpenFive.step = { atOpenFive with pc := 0x204 } := by
    rw [step_of_running hr, cycle, hpeek]
    rfl
  have hpast := hall atOpenFive hr (by rw [hpeek]; decide)
  rw [hskip] at hpast
  exact absurd (congrArg State.pc hpast) (by decide)

end State

end Chip8
