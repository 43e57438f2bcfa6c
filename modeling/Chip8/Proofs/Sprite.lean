/-
The drawing instruction. DXYN covers cells of the screen: for each of the N bytes from the index register on,
those under its set bits, in the eight columns from VX on and in the rows from VY down, around both edges. It
turns over the cells it covers, and tells in VF whether one of them was on. Of memory it shows no more than
these N bytes, though it always reads sixteen.
-/
import Chip8.Proofs.Drawing
import Chip8.Proofs.Outcome

namespace Chip8.State

/-! ## The cells of an instruction -/

/-- DXYN covers the cell in row `r` and column `c`: it is the cell `i` columns right of VX and `j` rows below VY,
and bit `7 - i` is set in the byte `j` after the index register. -/
def Covers (s : State) (x y height : Fin 16) (r : Fin 32) (c : Fin 64) : Prop :=
  ∃ j i : Nat, j < height.val ∧ i < 8 ∧ (s.memory.read (s.index.toNat + j)).toNat.testBit (7 - i) = true ∧
    r.val = ((s.v y).toNat + j) % 32 ∧ c.val = ((s.v x).toNat + i) % 64

/-- The cells that DXYN covers, as a screen on which no others are on. -/
def cover (s : State) (x y height : Fin 16) : Screen :=
  Screen.sprite s.spriteBytes (s.v x).toNat (s.v y).toNat height.val

section

variable (s : State) (x y n : Fin 16)

theorem length_spriteBytes : s.spriteBytes.length = 16 := by
  rw [spriteBytes, List.length_map, List.length_range]

theorem getD_spriteBytes {j : Nat} (h : j < 16) : s.spriteBytes.getD j 0 = s.memory.read (s.index.toNat + j) := by
  simp [spriteBytes, h]

theorem cell_cover_iff (r : Fin 32) (c : Fin 64) : (s.cover x y n).cell r c = true ↔ s.Covers x y n r c := by
  have hn := n.isLt
  have hlen := s.length_spriteBytes
  have hplace : ∀ i j : Nat, (r, c) = Screen.place ((s.v x).toNat + i, (s.v y).toNat + j) ↔
      r.val = ((s.v y).toNat + j) % 32 ∧ c.val = ((s.v x).toNat + i) % 64 := by
    intro i j
    simp only [Screen.place, Screen.row, Screen.column, Prod.mk.injEq, Fin.ext_iff]
    omega
  rw [cover, ← Screen.mem_places_iff (by omega) (by omega)]
  simp only [List.mem_map, Screen.mem_footprint]
  constructor
  · rintro ⟨p, ⟨j, i, hj, hi, hbit, rfl⟩, hp⟩
    rw [s.getD_spriteBytes (by omega)] at hbit
    exact ⟨j, i, by omega, hi, hbit, (hplace i j).1 hp.symm⟩
  · rintro ⟨j, i, hj, hi, hbit, hcell⟩
    rw [← s.getD_spriteBytes (by omega)] at hbit
    exact ⟨_, ⟨j, i, by omega, hi, hbit, rfl⟩, ((hplace i j).2 hcell).symm⟩

/-! ## Drawing them -/

theorem draw_eq : s.draw x y n =
    { s with
      screen := s.screen.xor (s.cover x y n)
      registers := s.registers.write Registers.flag (AluOp.flagByte (s.screen.meets (s.cover x y n))) } := rfl

theorem execute_of_drawing {o : Opcode} (h : o.family.val = 0xD) :
    s.execute (Instruction.decode o) = s.draw o.x o.y o.n :=
  s.execute_of_encodes (i := .draw o.x o.y o.n) ⟨h, rfl, rfl, rfl⟩

theorem flag_draw : (s.draw x y n).v Registers.flag = AluOp.flagByte (s.screen.meets (s.cover x y n)) := by
  rw [draw_eq]
  exact Registers.read_write_self ..

/-- The cells depend on memory through the bytes of the drawn rows alone. -/
theorem cover_of_same_rows {m : Memory}
    (h : ∀ j < n.val, m.read (s.index.toNat + j) = s.memory.read (s.index.toNat + j)) :
    State.cover { s with memory := m } x y n = s.cover x y n := by
  refine Bitmap.ext fun r c => ?_
  rw [Bool.eq_iff_iff, cell_cover_iff, cell_cover_iff]
  constructor
  · rintro ⟨j, i, hj, hi, hbit, hcell⟩
    exact ⟨j, i, hj, hi, h j hj ▸ hbit, hcell⟩
  · rintro ⟨j, i, hj, hi, hbit, hcell⟩
    exact ⟨j, i, hj, hi, (h j hj).symm ▸ hbit, hcell⟩

end

section

variable {s : State} {x y n : Fin 16}

theorem cell_draw_of_covers {r : Fin 32} {c : Fin 64} (h : s.Covers x y n r c) :
    (s.draw x y n).screen.cell r c = !s.screen.cell r c := by
  have hin := (s.cell_cover_iff x y n r c).2 h
  rw [draw_eq, Bitmap.cell_xor, hin, Bool.xor_true]

theorem cell_draw_of_not_covers {r : Fin 32} {c : Fin 64} (h : ¬ s.Covers x y n r c) :
    (s.draw x y n).screen.cell r c = s.screen.cell r c := by
  have hout : (s.cover x y n).cell r c = false := Bool.eq_false_iff.2 (mt (s.cell_cover_iff x y n r c).1 h)
  rw [draw_eq, Bitmap.cell_xor, hout, Bool.xor_false]

theorem flag_draw_of_on {r : Fin 32} {c : Fin 64} (h : s.Covers x y n r c) (hon : s.screen.cell r c = true) :
    (s.draw x y n).v Registers.flag = 1 := by
  have hmeets := (Bitmap.meets_iff ..).2 ⟨r, c, hon, (s.cell_cover_iff x y n r c).2 h⟩
  rw [flag_draw, hmeets]
  rfl

theorem flag_draw_of_off (h : ∀ r c, s.Covers x y n r c → s.screen.cell r c = false) :
    (s.draw x y n).v Registers.flag = 0 := by
  have hapart : s.screen.meets (s.cover x y n) = false := by
    refine Bool.eq_false_iff.2 fun hmeets => ?_
    obtain ⟨r, c, hon, hin⟩ := (Bitmap.meets_iff ..).1 hmeets
    exact Bool.false_ne_true ((h r c ((s.cell_cover_iff ..).1 hin)).symm.trans hon)
  rw [flag_draw, hapart]
  rfl

end

/-- DXYN turns over the cells it covers, where VX and VY are those from before VF is written. It sets VF to 1 if
one of these cells was on, and to 0 otherwise, and leaves all else alone. What it does is the same with any memory
that has the same N bytes from the index register on. -/
theorem draw_turns_covered_cells (s : State) {o : Opcode} (h : o.family.val = 0xD) :
    let t := s.execute (Instruction.decode o)
    let Covered := s.Covers o.x o.y o.n
    (∀ r c, (Covered r c → t.screen.cell r c = !s.screen.cell r c) ∧
      (¬ Covered r c → t.screen.cell r c = s.screen.cell r c)) ∧
    ((∃ r c, Covered r c ∧ s.screen.cell r c = true) → t.v Registers.flag = 1) ∧
    ((∀ r c, Covered r c → s.screen.cell r c = false) → t.v Registers.flag = 0) ∧
    t = { s with screen := t.screen, registers := s.registers.write Registers.flag (t.v Registers.flag) } ∧
    ∀ m : Memory, (∀ j < o.n.val, m.read (s.index.toNat + j) = s.memory.read (s.index.toNat + j)) →
      State.execute { s with memory := m } (Instruction.decode o) = { t with memory := m } := by
  simp only [execute_of_drawing _ h]
  refine ⟨fun r c => ⟨cell_draw_of_covers, cell_draw_of_not_covers⟩, ?_, flag_draw_of_off, ?_, fun m hm => ?_⟩
  · rintro ⟨r, c, hc, hon⟩
    exact flag_draw_of_on hc hon
  · rw [flag_draw, draw_eq]
  · rw [draw_eq, draw_eq, cover_of_same_rows _ _ _ _ hm]

/-- A machine with VF at the last cell of the screen and the index register at the last cell of memory. -/
def atCorner : State :=
  { powerOn ⟨false, false, false, false⟩ ⟨0, 0⟩ with
    memory := (Memory.initial.write 0xFFF 0xC3).write 0 0x81
    index := 0xFFFF
    registers := Registers.cleared.write Registers.flag 0xFF
    screen := Bitmap.blank.flip 31 0 }

theorem byte_atCorner : atCorner.memory.read (atCorner.index.toNat + 0) = 0xC3 :=
  (Memory.read_write_of_ne _ _ (by decide)).trans (Memory.read_write_self ..)

/-- DFF2 there, with VF for both coordinates: the sprite goes on at the left, at the top, and at the start of
memory, and erases the only cell that was on. -/
theorem draw_turns_covered_cells_at_corner :
    let t := atCorner.execute (Instruction.decode ⟨0xDFF2⟩)
    (Opcode.mk 0xDFF2).family.val = 0xD ∧ t.screen.cell 31 0 = false ∧ t.screen.cell 0 63 = true ∧
      t.v Registers.flag = 1 := by
  intro t
  have hfamily : (Opcode.mk 0xDFF2).family.val = 0xD := rfl
  have hnext : atCorner.memory.read (atCorner.index.toNat + 1) = 0x81 := Memory.read_write_self ..
  have hright : atCorner.Covers 15 15 2 31 0 := ⟨0, 1, by decide, by decide, by rw [byte_atCorner]; decide, rfl, rfl⟩
  have hbelow : atCorner.Covers 15 15 2 0 63 := ⟨1, 0, by decide, by decide, by rw [hnext]; decide, rfl, rfl⟩
  have hon : atCorner.screen.cell 31 0 = true := by decide
  obtain ⟨hturn, hflag, -⟩ := draw_turns_covered_cells atCorner hfamily
  refine ⟨hfamily, ?_, ?_, hflag ⟨31, 0, hright, hon⟩⟩
  · rw [(hturn 31 0).1 hright, hon]
    rfl
  · rw [(hturn 0 63).1 hbelow]
    decide

end Chip8.State
