/-
Programs without turns. The bytes of a list of opcodes, loaded into memory, are fetched as these opcodes
again. If none of them moves the program counter, waits or writes to memory, running the program does what
its instructions do one after the other, up to a program that ends in the last cell of memory.
-/
import Chip8.Batch
import Chip8.Program
import Chip8.Proofs.AddressBits
import Chip8.Proofs.Writes

namespace Chip8

/-! ## Opcodes in memory -/

namespace Opcode

/-- The bytes of an opcode, the higher first. -/
def bytes (o : Opcode) : List UInt8 := [UInt8.ofNat (o.word.toNat / 0x100), o.byte]

/-- The image of a program. -/
def image (ops : List Opcode) : List UInt8 := ops.flatMap bytes

theorem ofBytes_bytes (o : Opcode) : ofBytes (UInt8.ofNat (o.word.toNat / 0x100)) o.byte = o := by
  have hlt := o.word.toNat_lt
  have hword : UInt16.ofNat ((UInt8.ofNat (o.word.toNat / 0x100)).toNat * 256 + o.byte.toNat) = o.word := by
    rw [← UInt16.toNat_inj, byte_toNat, UInt8.toNat_ofNat', UInt16.toNat_ofNat']
    omega
  rw [ofBytes, hword]

theorem image_cons (o : Opcode) (ops : List Opcode) :
    image (o :: ops) = UInt8.ofNat (o.word.toNat / 0x100) :: o.byte :: image ops := rfl

theorem length_image (ops : List Opcode) : (image ops).length = 2 * ops.length := by
  induction ops with
  | nil => rfl
  | cons o ops ih =>
    rw [image_cons, List.length_cons, List.length_cons, List.length_cons, ih]
    omega

end Opcode

namespace Memory

/-- The opcodes stand in memory one after the other, from address `a` on. -/
def Holds (m : Memory) : Nat → List Opcode → Prop
  | _, [] => True
  | a, o :: ops => Opcode.ofBytes (m.read a) (m.read (a + 1)) = o ∧ m.Holds (a + 2) ops

theorem Holds.congr {m : Memory} {a c : Nat} {ops : List Opcode} (h : m.Holds a ops) (hac : a % 4096 = c % 4096) :
    m.Holds c ops := by
  induction ops generalizing a c with
  | nil => trivial
  | cons o ops ih =>
    obtain ⟨ho, hops⟩ := h
    refine ⟨?_, ih hops (by omega)⟩
    rw [← m.read_congr hac, ← m.read_congr (show (a + 1) % 4096 = (c + 1) % 4096 by omega)]
    exact ho

theorem Holds.take {m : Memory} {a : Nat} {ops : List Opcode} (h : m.Holds a ops) (k : Nat) :
    m.Holds a (ops.take k) := by
  induction ops generalizing a k with
  | nil => simpa using h
  | cons o ops ih =>
    cases k with
    | zero => trivial
    | succ k => exact ⟨h.1, ih h.2 k⟩

/-- A program that is no longer than memory stands where it was written. -/
theorem holds_writeAll (m : Memory) (a : Nat) {ops : List Opcode} (h : 2 * ops.length ≤ 4096) :
    (m.writeAll a (Opcode.image ops)).Holds a ops := by
  induction ops generalizing m a with
  | nil => trivial
  | cons o ops ih =>
    rw [List.length_cons] at h
    rw [Opcode.image_cons, writeAll_cons, writeAll_cons]
    refine ⟨?_, ih _ (a + 1 + 1) (by omega)⟩
    -- the rest of the program does not come round to the two cells of this opcode
    have hlen := Opcode.length_image ops
    rw [read_writeAll_of_ne _ (by omega), read_writeAll_of_ne _ (by omega), read_write_self,
      read_write_of_ne _ _ (by omega), read_write_self]
    exact o.ofBytes_bytes

end Memory

/-! ## Opcodes without turns -/

/-- The opcodes that move the program counter, wait, or write to memory. -/
def Pattern.turning : List Pattern :=
  [word 0x00EE, family 0x1, family 0x2, family 0x3, family 0x4, family 0x5, family 0x9, family 0xB, low 0xE 0x9E,
   low 0xE 0xA1, low 0xF 0x0A, low 0xF 0x33, low 0xF 0x55]

def Opcode.Straight (o : Opcode) : Prop := ¬ o.OneOf Pattern.turning

instance (o : Opcode) : Decidable o.Straight := inferInstanceAs (Decidable (¬ o.OneOf Pattern.turning))

namespace State

variable {s : State} {o : Opcode}

theorem Refuses.turning (h : s.Refuses o) : o.OneOf Pattern.turning := by
  rcases h with ⟨ho, -⟩ | ⟨ho, -⟩
  · exact ⟨.family 0x2, by decide, ho⟩
  · exact ⟨.word 0x00EE, by decide, ho⟩

theorem Suspends.turning (h : s.Suspends o) : o.OneOf Pattern.turning := h.1.mono (by decide)

theorem Skips.turning (h : s.Skips o) : o.OneOf Pattern.turning := by
  rcases h with ⟨ho, -⟩ | ⟨ho, -⟩ | ⟨ho, -⟩ | ⟨ho, -⟩ | ⟨ho, -⟩ | ⟨ho, -⟩
  · exact ⟨.family 0x3, by decide, ho⟩
  · exact ⟨.family 0x4, by decide, ho⟩
  · exact ⟨.family 0x5, by decide, ho⟩
  · exact ⟨.family 0x9, by decide, ho⟩
  · exact ho.mono (by decide)
  · exact ho.mono (by decide)

theorem Diverts.turning (h : s.Diverts o) : o.OneOf Pattern.turning := by
  rcases h with ho | hskip | hwait
  · exact ho.mono (by decide)
  · exact hskip.turning
  · exact hwait.turning

/-- An instruction without a turn leaves alone what decides which instruction comes next. -/
structure Onward (s t : State) : Prop where
  pc : t.pc = s.pc
  memory : t.memory = s.memory
  fault : t.fault = s.fault
  waiting : t.waiting = s.waiting

theorem Confined.onward {t : State} (h : Confined s o t) (ho : o.Straight) : Onward s t where
  pc := not_imp_comm.1 h.pc fun hd => ho hd.turning
  memory := not_imp_comm.1 h.memory fun hm => ho (hm.mono (by decide))
  fault := not_imp_comm.1 h.fault fun hf => ho hf.turning
  waiting := not_imp_comm.1 h.waiting fun hw => ho hw.turning

/-! ## Runs -/

/-- Executes opcodes one after the other, with the program counter past each of them. -/
def follow (s : State) (ops : List Opcode) : State :=
  ops.foldl (fun s o => s.advance.execute (Instruction.decode o)) s

theorem advance_pc_toNat (s : State) : s.advance.pc.toNat = (s.pc.toNat + 2) % 65536 := UInt16.toNat_add s.pc 2

/-- A running machine follows the opcodes in front of it, as long as there is no turn among them. -/
theorem run_follow (hr : s.Running) {ops : List Opcode} (hops : ∀ o ∈ ops, o.Straight)
    (hm : s.memory.Holds s.pc.toNat ops) :
    run ops.length s = s.follow ops ∧ (s.follow ops).Running ∧
      (s.follow ops).pc.toNat = (s.pc.toNat + 2 * ops.length) % 65536 := by
  induction ops generalizing s with
  | nil =>
    have hlt := s.pc.toNat_lt
    exact ⟨rfl, hr, by simp only [follow, List.foldl_nil, List.length_nil]; omega⟩
  | cons o ops ih =>
    obtain ⟨ho, hops⟩ := List.forall_mem_cons.1 hops
    obtain ⟨hpeek, hrest⟩ := hm
    have hstep : s.step = s.advance.execute (Instruction.decode o) := by
      rw [step_of_running hr, cycle, show s.peek = o from hpeek]
    have hon : Onward s.advance s.step := hstep ▸ (executed_confined s.advance o).onward ho
    have hpc : s.step.pc.toNat = (s.pc.toNat + 2) % 65536 := by rw [hon.pc, advance_pc_toNat]
    have hr' : s.step.Running := ⟨hon.fault.trans hr.fault, hon.waiting.trans hr.waiting⟩
    -- the rest of the program still stands where the program counter points to
    have hm' : s.step.memory.Holds s.step.pc.toNat ops := by
      rw [hon.memory]
      exact hrest.congr (by omega)
    obtain ⟨hrun, hrunning, hend⟩ := ih hr' hops hm'
    have hfollow : s.follow (o :: ops) = s.step.follow ops := by rw [hstep]; rfl
    rw [hfollow, List.length_cons, run]
    exact ⟨hrun, hrunning, by omega⟩

/-- Let a running machine be at the start of the room for programs, and let there be a program of at most as
many opcodes as fit there, without a turn among them. The machine takes the program, and running it for its
length leads to where the opcodes lead, executed one after the other. The program counter is then behind the
program, and at no point of the run has the machine stopped or begun to wait. -/
theorem run_straight_line {s : State} (hr : s.Running) (hpc : s.pc = 0x200) {ops : List Opcode}
    (hlen : ops.length ≤ 1792) (hops : ∀ o ∈ ops, o.Straight) :
    ∃ t, s.load (.bytes (Opcode.image ops)) = .ok t ∧
      t.runMany ops.length = .ok (t.follow ops) ∧
      (t.follow ops).pc.toNat = 0x200 + 2 * ops.length ∧
      ∀ k ≤ ops.length, run k t = t.follow (ops.take k) ∧ (run k t).Running := by
  have himage := Opcode.length_image ops
  have hroom : Memory.programRoom = 3584 := rfl
  let t : State := { s with memory := s.memory.writeAll Memory.programStart (Opcode.image ops) }
  have hload : s.load (.bytes (Opcode.image ops)) = .ok t := s.load_bytes (by omega)
  have hr' : t.Running := ⟨hr.fault, hr.waiting⟩
  have hstart : t.pc.toNat = Memory.programStart := by
    rw [show t.pc = 0x200 from hpc]
    rfl
  have hm : t.memory.Holds t.pc.toNat ops := by
    rw [hstart]
    exact Memory.holds_writeAll _ _ (by omega)
  obtain ⟨hrun, -, hend⟩ := run_follow hr' hops hm
  refine ⟨t, hload, ?_, ?_, fun k hk => ?_⟩
  · rw [runMany, if_pos (by omega), Int.toNat_natCast, hrun]
  · rw [hend, hstart]
    simp only [Memory.programStart]
    omega
  · obtain ⟨hrun', hrunning, -⟩ := run_follow hr' (fun o ho => hops o (List.mem_of_mem_take ho)) (hm.take k)
    rw [List.length_take, Nat.min_eq_left hk] at hrun'
    rw [hrun']
    exact ⟨rfl, hrunning⟩

def stretch : List Opcode := [⟨0xA1FE⟩, ⟨0x7103⟩, ⟨0x8124⟩, ⟨0xC20F⟩, ⟨0xD125⟩, ⟨0xF21E⟩, ⟨0xF565⟩]

/-- A program that fills the room for programs up to the last cell of memory. -/
def fullProgram : List Opcode := (List.replicate 256 stretch).flatten

theorem run_straight_line_to_last_cell :
    ∃ t, (powerOn ⟨true, true, true, true⟩ ⟨1, 2⟩).load (.bytes (Opcode.image fullProgram)) = .ok t ∧
      t.runMany 1792 = .ok (t.follow fullProgram) ∧ (t.follow fullProgram).pc.toNat = 0x1000 := by
  have hlength : fullProgram.length = 1792 := by
    rw [fullProgram, List.length_flatten, List.map_replicate, List.sum_replicate_nat]
    rfl
  have hstraight : ∀ o ∈ fullProgram, o.Straight := by
    intro o ho
    obtain ⟨ops, hops, ho⟩ := List.mem_flatten.1 ho
    rw [List.eq_of_mem_replicate hops] at ho
    exact (by decide : ∀ o ∈ stretch, o.Straight) o ho
  obtain ⟨t, hload, hrun, hend, -⟩ := run_straight_line (s := powerOn ⟨true, true, true, true⟩ ⟨1, 2⟩)
    ⟨rfl, rfl⟩ rfl (Nat.le_of_eq hlength) hstraight
  rw [hlength] at hrun hend
  exact ⟨t, hload, hrun, hend⟩

end State

end Chip8
