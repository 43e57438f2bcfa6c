/-
Bytes between the registers and memory. Two kinds of opcodes write to memory: FX33 leaves the decimal digits of
VX in three cells from the index register on, and FX55 leaves V0 to VX there. FX55 always writes sixteen cells,
but those past VX get back what they hold, so the others stay as they are. FX65 reads what FX55 has stored: the
two undo each other, also where the cells go on at the start of memory.
-/
import Chip8.Proofs.Writes

namespace Chip8

/-! ## Writing bytes one after the other -/

namespace Memory

/-- The memory `n` holds the bytes in the cells from `a` on, and what `m` holds in all other cells. -/
structure Stored (m : Memory) (a : Nat) (bs : List UInt8) (n : Memory) : Prop where
  inside : ∀ i (h : i < bs.length), n.read (a + i) = bs[i]
  outside : ∀ c, (∀ i < bs.length, c % 4096 ≠ (a + i) % 4096) → n.read c = m.read c

theorem stored_writeAll (m : Memory) (a : Nat) {bs : List UInt8} (h : bs.length ≤ 4096) :
    m.Stored a bs (m.writeAll a bs) where
  inside _ hi := m.read_writeAll_add a h hi
  outside _ hc := m.read_writeAll_of_ne hc

/-- Writing what already stands there changes nothing. -/
theorem writeAll_of_standing {m : Memory} {a : Nat} {bs : List UInt8}
    (h : ∀ i (hi : i < bs.length), bs[i] = m.read (a + i)) : m.writeAll a bs = m := by
  induction bs generalizing a with
  | nil => rfl
  | cons b bs ih =>
    have hb : b = m.read a := h 0 (Nat.succ_pos _)
    rw [writeAll_cons, hb, write_read]
    apply ih
    intro i hi
    have hcell : a + 1 + i = a + (i + 1) := by omega
    rw [hcell]
    exact h (i + 1) (Nat.succ_lt_succ hi)

end Memory

namespace State

/-! ## Registers to memory -/

/-- V0 to VX. -/
def registersTo (s : State) (x : Fin 16) : List UInt8 := s.registers.toList.take (x.val + 1)

section

variable (s : State) (x : Fin 16)

theorem length_registersTo : (s.registersTo x).length = x.val + 1 := by
  have hx := x.isLt
  rw [registersTo, List.length_take, Vector.length_toList]
  omega

theorem getElem_registersTo {i : Nat} (hi : i < (s.registersTo x).length) :
    (s.registersTo x)[i] = s.v ⟨i, by rw [length_registersTo] at hi; omega⟩ := by
  simp [registersTo, v, Registers.read, Place.get_eq_getElem]

theorem length_storeWindow : (s.storeWindow x).length = 16 := List.length_ofFn

theorem getElem_storeWindow {i : Nat} (hi : i < (s.storeWindow x).length) :
    (s.storeWindow x)[i] =
      if i ≤ x.val then s.v ⟨i, by rwa [length_storeWindow] at hi⟩ else s.memory.read (s.index.toNat + i) := by
  simp only [storeWindow, List.getElem_ofFn, Fin.le_def]

theorem take_storeWindow : (s.storeWindow x).take (x.val + 1) = s.registersTo x := by
  have hx := x.isLt
  apply List.ext_getElem
  · rw [List.length_take, length_storeWindow, length_registersTo]
    omega
  · intro i hi hi'
    have hle : i ≤ x.val := by
      rw [length_registersTo] at hi'
      omega
    rw [List.getElem_take, getElem_storeWindow, if_pos hle, getElem_registersTo]

/-- A store writes V0 to VX and no more: the cells past them get back what they hold. -/
theorem memory_storeRegisters :
    (s.storeRegisters x).memory = s.memory.writeAll s.index.toNat (s.registersTo x) := by
  have hlen := s.length_registersTo x
  show s.memory.writeAll s.index.toNat (s.storeWindow x) = _
  rw [← List.take_append_drop (x.val + 1) (s.storeWindow x), take_storeWindow, Memory.writeAll_append]
  apply Memory.writeAll_of_standing
  intro i hi
  rw [List.length_drop, length_storeWindow] at hi
  rw [List.getElem_drop, getElem_storeWindow, if_neg (by omega), hlen, ← Nat.add_assoc]
  symm
  apply Memory.read_writeAll_of_ne
  -- the sixteen cells are apart, so none of the registers has been written into this one
  intro j hj
  omega

theorem stored_storeRegisters :
    s.memory.Stored s.index.toNat (s.registersTo x) (s.storeRegisters x).memory := by
  have hlen := s.length_registersTo x
  rw [memory_storeRegisters]
  exact s.memory.stored_writeAll _ (by omega)

theorem read_storeRegisters {r : Fin 16} (hr : r ≤ x) :
    (s.storeRegisters x).memory.read (s.index.toNat + r.val) = s.v r := by
  have hlt : r.val < (s.registersTo x).length := by
    rw [length_registersTo]
    exact Nat.lt_succ_of_le hr
  rw [(s.stored_storeRegisters x).inside r.val hlt, getElem_registersTo]

end

/-! ## Decimal digits -/

theorem decimalDigits_digits (b : UInt8) :
    (b / 100).toNat ≤ 9 ∧ (b / 10 % 10).toNat ≤ 9 ∧ (b % 10).toNat ≤ 9 ∧
      100 * (b / 100).toNat + 10 * (b / 10 % 10).toNat + (b % 10).toNat = b.toNat := by
  have hlt := b.toNat_lt
  have hhundreds : (b / 100).toNat = b.toNat / 100 := rfl
  have htens : (b / 10 % 10).toNat = b.toNat / 10 % 10 := rfl
  have hones : (b % 10).toNat = b.toNat % 10 := rfl
  omega

/-! ## What an opcode writes to memory -/

/-- FX33 writes three decimal digits that make up VX, FX55 writes V0 to VX one after the other, both from the index
register on, and neither touches another cell. No other opcode writes to memory. -/
theorem memory_after_execute (s : State) (o : Opcode) :
    let m := (s.execute (Instruction.decode o)).memory
    ((Pattern.low 0xF 0x33).Fits o → ∃ h t u : UInt8, h.toNat ≤ 9 ∧ t.toNat ≤ 9 ∧ u.toNat ≤ 9 ∧
      100 * h.toNat + 10 * t.toNat + u.toNat = (s.v o.x).toNat ∧ s.memory.Stored s.index.toNat [h, t, u] m) ∧
    ((Pattern.low 0xF 0x55).Fits o →
      m = s.memory.writeAll s.index.toNat (s.registersTo o.x) ∧
      s.memory.Stored s.index.toNat (s.registersTo o.x) m) ∧
    (¬ o.OneOf [.low 0xF 0x33, .low 0xF 0x55] → m = s.memory) := by
  intro m
  refine ⟨fun ho => ?_, fun ho => ?_, fun ho => ?_⟩
  · have hm : m = s.memory.writeAll s.index.toNat (decimalDigits (s.v o.x)) :=
      congrArg State.memory (s.execute_of_encodes (i := .storeDecimal o.x) ⟨ho.1, ho.2, rfl⟩)
    obtain ⟨hh, ht, hu, hsum⟩ := decimalDigits_digits (s.v o.x)
    rw [hm]
    exact ⟨_, _, _, hh, ht, hu, hsum, s.memory.stored_writeAll _ (by simp)⟩
  · have hm : m = (s.storeRegisters o.x).memory :=
      congrArg State.memory (s.execute_of_encodes (i := .storeRegisters o.x) ⟨ho.1, ho.2, rfl⟩)
    rw [hm]
    exact ⟨s.memory_storeRegisters o.x, s.stored_storeRegisters o.x⟩
  · by_contra hne
    exact ho ((executed_confined s o).memory hne)

/-- A machine whose index register is just before the wrap, with V0 to VF numbered from 1. -/
def atEdge : State :=
  { powerOn ⟨true, false, false, false⟩ ⟨0, 0⟩ with
    index := 0xFFFE
    registers := Vector.ofFn fun r => UInt8.ofNat (r.val + 1) }

/-- F355 before the wrap writes the last two cells of memory and the first two, and not the one after. -/
theorem memory_after_execute_at_edge :
    let m := (atEdge.execute (Instruction.decode ⟨0xF355⟩)).memory
    (Pattern.low 0xF 0x55).Fits ⟨0xF355⟩ ∧ m.read 0xFFE = 1 ∧ m.read 0xFFF = 2 ∧ m.read 0 = 3 ∧ m.read 1 = 4 ∧
      m.read 2 = atEdge.memory.read 2 := by
  intro m
  have hfits : (Pattern.low 0xF 0x55).Fits ⟨0xF355⟩ := ⟨rfl, rfl⟩
  obtain ⟨-, hstore, -⟩ := memory_after_execute atEdge ⟨0xF355⟩
  obtain ⟨-, hin, hout⟩ := hstore hfits
  have hindex : atEdge.index.toNat = 0xFFFE := rfl
  have hlen : (atEdge.registersTo (Opcode.x ⟨0xF355⟩)).length = 4 := length_registersTo ..
  refine ⟨hfits, hin 0 (by omega), hin 1 (by omega), hin 2 (by omega), hin 3 (by omega), hout 2 ?_⟩
  intro i hi
  omega

/-! ## There and back -/

section

variable (s : State) (x : Fin 16)

theorem v_loadRegisters (r : Fin 16) :
    (s.loadRegisters x).v r = if r ≤ x then s.memory.read (s.index.toNat + r.val) else s.v r :=
  Place.get_ofFn _ r

theorem memory_loadRegisters : (s.loadRegisters x).memory = s.memory := by
  unfold loadRegisters
  rfl

/-- Where a transfer of V0 to VX leaves the index register: where it was, or past the last cell. -/
def indexPast : Nat := if s.dialect.indexAdvances then (s.index.toNat + x.val + 1) % 65536 else s.index.toNat

theorem indexAfter_toNat : (s.indexAfter x).toNat = s.indexPast x := by
  have hx := x.isLt
  unfold indexAfter indexPast
  split
  · rw [UInt16.toNat_add, UInt16.toNat_ofNat']
    omega
  · rfl

/-- Storing registers that hold what stands in their cells leaves memory as it is. -/
theorem storeRegisters_of_standing (h : ∀ r ≤ x, s.v r = s.memory.read (s.index.toNat + r.val)) :
    (s.storeRegisters x).memory = s.memory := by
  rw [memory_storeRegisters]
  apply Memory.writeAll_of_standing
  intro i hi
  rw [getElem_registersTo]
  rw [length_registersTo] at hi
  exact h _ (Nat.le_of_lt_succ hi)

end

/-- What FX55 has stored FX65 gets back, into registers that hold anything, and the registers past VX keep what they
hold. What FX65 has loaded FX55 puts back where it comes from, and so changes neither memory nor registers. Each of
them moves the index register past the last cell, or leaves it alone, as the dialect says. -/
theorem store_and_load_undo (s : State) (w : Registers) {x : Fin 16} {save load : Opcode}
    (hsave : save.Encodes (.storeRegisters x)) (hload : load.Encodes (.loadRegisters x)) :
    (let t := s.execute (Instruction.decode save)
      let u := { t with registers := w, index := s.index }.execute (Instruction.decode load)
      (∀ r, u.v r = if r ≤ x then s.v r else w.read r) ∧
      t.index.toNat = s.indexPast x ∧ u.index.toNat = s.indexPast x) ∧
    (let t := s.execute (Instruction.decode load)
      let u := { t with index := s.index }.execute (Instruction.decode save)
      u.memory = t.memory ∧ u.registers = t.registers ∧
      t.index.toNat = s.indexPast x ∧ u.index.toNat = s.indexPast x) := by
  have hstores : ∀ t : State, t.execute (Instruction.decode save) = t.storeRegisters x :=
    fun t => t.execute_of_encodes hsave
  have hloads : ∀ t : State, t.execute (Instruction.decode load) = t.loadRegisters x :=
    fun t => t.execute_of_encodes hload
  have hindex := s.indexAfter_toNat x
  simp only [hstores, hloads]
  refine ⟨⟨fun r => ?_, hindex, hindex⟩, ?_, rfl, hindex, hindex⟩
  · rw [v_loadRegisters]
    split
    · rename_i hle
      exact s.read_storeRegisters x hle
    · rfl
  · have hloaded : ∀ r ≤ x, (s.loadRegisters x).v r = s.memory.read (s.index.toNat + r.val) := by
      intro r hle
      rw [v_loadRegisters, if_pos hle]
    have hm := s.memory_loadRegisters x
    generalize s.loadRegisters x = t at hloaded hm ⊢
    apply storeRegisters_of_standing
    intro r hle
    rw [hm]
    exact hloaded r hle

/-- F355 and F365 before the wrap, with other bytes in the registers in between. -/
theorem store_and_load_undo_at_edge :
    let save : Opcode := ⟨0xF355⟩
    let load : Opcode := ⟨0xF365⟩
    let t := atEdge.execute (Instruction.decode save)
    let u := { t with registers := Registers.cleared, index := atEdge.index }.execute (Instruction.decode load)
    save.Encodes (.storeRegisters save.x) ∧ load.Encodes (.loadRegisters save.x) ∧
      u.v save.x = atEdge.v save.x ∧ u.v Registers.flag = 0 ∧ t.index.toNat = 2 ∧ u.index.toNat = 2 := by
  intro save load t u
  have hsave : save.Encodes (.storeRegisters save.x) := by decide
  have hload : load.Encodes (.loadRegisters save.x) := by decide
  obtain ⟨⟨hback, hstored, hloaded⟩, -⟩ := store_and_load_undo atEdge Registers.cleared hsave hload
  have hpast : atEdge.indexPast save.x = 2 := by decide
  refine ⟨hsave, hload, ?_, ?_, hstored.trans hpast, hloaded.trans hpast⟩
  · exact (hback save.x).trans (if_pos (Nat.le_refl _))
  · exact (hback Registers.flag).trans (if_neg (by decide))

end State

end Chip8
