/-
What an instruction writes. A state is confined to an opcode, as seen from the state before, if it differs
from that state only in the parts the opcode may write: each instruction leads to a confined state. An
instruction that cannot be completed, and one that begins to wait for a key, write even less: they only move
the program counter back and note down what has happened.
-/
import Chip8.Proofs.CallStack
import Chip8.Proofs.Unassigned

namespace Chip8

namespace Opcode

def OneOf (o : Opcode) (ps : List Pattern) : Prop := ∃ p ∈ ps, p.Fits o

instance (o : Opcode) (ps : List Pattern) : Decidable (o.OneOf ps) := inferInstanceAs (Decidable (∃ p ∈ ps, p.Fits o))

theorem OneOf.mono {o : Opcode} {ps qs : List Pattern} (h : o.OneOf ps) (hsub : ∀ p ∈ ps, p ∈ qs) : o.OneOf qs := by
  obtain ⟨p, hp, hfits⟩ := h
  exact ⟨p, hsub p hp, hfits⟩

@[simp] theorem oneOf_singleton {o : Opcode} {p : Pattern} : o.OneOf [p] ↔ p.Fits o := by
  simp [OneOf]

/-- The opcode may write the register Vr: VX, or the flag, or all registers up to VX. -/
def Writes (o : Opcode) (r : Fin 16) : Prop :=
  (r = o.x ∧ o.OneOf [.family 0x6, .family 0x7, .family 0x8, .family 0xC, .low 0xF 0x07, .low 0xF 0x0A]) ∨
  (r = Registers.flag ∧ o.OneOf [.family 0x8, .family 0xD]) ∨
  (r ≤ o.x ∧ o.OneOf [.low 0xF 0x65])

end Opcode

namespace State

/-! ## What opcodes do in a state -/

/-- A call with all slots of the stack in use, or a return with none. -/
def Refuses (s : State) (o : Opcode) : Prop :=
  (o.family.val = 0x2 ∧ 16 ≤ s.stack.pointer) ∨ (o.word = 0x00EE ∧ s.stack.pointer ≤ 0)

/-- A call or a return that is not refused. -/
def Stacks (s : State) (o : Opcode) : Prop :=
  (o.family.val = 0x2 ∧ s.stack.pointer < 16) ∨ (o.word = 0x00EE ∧ 0 < s.stack.pointer)

/-- FX0A with no key down. -/
def Suspends (s : State) (o : Opcode) : Prop := o.OneOf [.low 0xF 0x0A] ∧ ∀ k, s.keypad.isDown k = false

/-- A skip whose condition holds on the registers, or on the key that has the number VX modulo 16. -/
def Skips (s : State) (o : Opcode) : Prop :=
  (o.family.val = 0x3 ∧ s.v o.x = o.byte) ∨ (o.family.val = 0x4 ∧ s.v o.x ≠ o.byte) ∨
  (o.family.val = 0x5 ∧ s.v o.x = s.v o.y) ∨ (o.family.val = 0x9 ∧ s.v o.x ≠ s.v o.y) ∨
  (o.OneOf [.low 0xE 0x9E] ∧ s.keypad.isDown ⟨(s.v o.x).toNat % 16, Nat.mod_lt _ (by decide)⟩ = true) ∨
  (o.OneOf [.low 0xE 0xA1] ∧ s.keypad.isDown ⟨(s.v o.x).toNat % 16, Nat.mod_lt _ (by decide)⟩ = false)

/-- A jump, a call, a return, a skip that is taken, or the beginning of a wait. -/
def Diverts (s : State) (o : Opcode) : Prop :=
  o.OneOf [.family 0x1, .family 0xB, .family 0x2, .word 0x00EE] ∨ s.Skips o ∨ s.Suspends o

def MovesIndex (s : State) (o : Opcode) : Prop :=
  o.OneOf [.family 0xA, .low 0xF 0x1E, .low 0xF 0x29] ∨
  (o.OneOf [.low 0xF 0x55, .low 0xF 0x65] ∧ s.dialect.indexAdvances = true)

/-- The state `t` differs from `s` only in what the opcode may write in `s`. -/
structure Confined (s : State) (o : Opcode) (t : State) : Prop where
  dialect : t.dialect = s.dialect
  keypad : t.keypad = s.keypad
  randomKey : t.randomKey ≠ s.randomKey → o.OneOf [.family 0xC]
  memory : t.memory ≠ s.memory → o.OneOf [.low 0xF 0x33, .low 0xF 0x55]
  screen : t.screen ≠ s.screen → o.OneOf [.word 0x00E0, .family 0xD]
  delay : t.delay ≠ s.delay → o.OneOf [.low 0xF 0x15]
  sound : t.sound ≠ s.sound → o.OneOf [.low 0xF 0x18]
  index : t.index ≠ s.index → s.MovesIndex o
  registers : ∀ r, t.v r ≠ s.v r → o.Writes r
  pc : t.pc ≠ s.pc → s.Diverts o
  stack : t.stack ≠ s.stack → s.Stacks o
  fault : t.fault ≠ s.fault → s.Refuses o
  waiting : t.waiting ≠ s.waiting → s.Suspends o
  keyRegister : t.keyRegister ≠ s.keyRegister → s.Suspends o

/-! ## One part written -/

namespace Confined

theorem refl (s : State) (o : Opcode) : Confined s o s :=
  ⟨rfl, rfl, absurd rfl, absurd rfl, absurd rfl, absurd rfl, absurd rfl, absurd rfl, fun _ => absurd rfl, absurd rfl,
    absurd rfl, absurd rfl, absurd rfl, absurd rfl⟩

variable {s t : State} {o : Opcode}

theorem setRegister (h : Confined s o t) {x : Fin 16} (hx : o.Writes x) (b : UInt8) :
    Confined s o (t.setRegister x b) := by
  refine { h with registers := fun r hr => ?_ }
  by_cases hrx : r = x
  · rw [hrx]
    exact hx
  · refine h.registers r fun hsame => hr ?_
    rw [← hsame]
    exact Registers.read_write_of_ne _ _ hrx

theorem setPc (h : Confined s o t) (hd : s.Diverts o) (pc : UInt16) : Confined s o { t with pc } :=
  { h with pc := fun _ => hd }

theorem setIndex (h : Confined s o t) (hi : s.MovesIndex o) (index : UInt16) : Confined s o { t with index } :=
  { h with index := fun _ => hi }

theorem setMemory (h : Confined s o t) (hm : o.OneOf [.low 0xF 0x33, .low 0xF 0x55]) (memory : Memory) :
    Confined s o { t with memory } :=
  { h with memory := fun _ => hm }

theorem setScreen (h : Confined s o t) (hc : o.OneOf [.word 0x00E0, .family 0xD]) (screen : Screen) :
    Confined s o { t with screen } :=
  { h with screen := fun _ => hc }

theorem setStack (h : Confined s o t) (hs : s.Stacks o) (stack : CallStack) : Confined s o { t with stack } :=
  { h with stack := fun _ => hs }

end Confined

/-! ## The instructions -/

variable {s : State} {o : Opcode}

theorem keyDown_eq (s : State) (x : Fin 16) :
    s.keyDown x = s.keypad.isDown ⟨(s.v x).toNat % 16, Nat.mod_lt _ (by decide)⟩ := rfl

theorem skip_confined {c : Bool} (h : c = true → s.Skips o) : Confined s o (s.skip c) := by
  cases c with
  | false => exact .refl s o
  | true => exact (Confined.refl s o).setPc (.inr (.inl (h rfl))) _

theorem stop_confined (h : s.Refuses o) (hd : s.Diverts o) (f : Fault) : Confined s o (s.stop f) :=
  { (Confined.refl s o).setPc hd (s.pc - 2) with fault := fun _ => h }

theorem call_confined (h : o.family.val = 0x2) (a : UInt16) : Confined s o (s.call a) := by
  have hd : s.Diverts o := .inl ⟨.family 0x2, by decide, h⟩
  unfold call
  cases hp : s.stack.push? s.pc with
  | none => exact stop_confined (.inl ⟨h, CallStack.push?_eq_none_iff.1 hp⟩) hd _
  | some stack =>
    have hroom : s.stack.pointer < 16 := CallStack.pointer_lt_of_push? hp
    exact ((Confined.refl s o).setStack (.inl ⟨h, hroom⟩) stack).setPc hd a

theorem leave_confined (h : o.word = 0x00EE) : Confined s o s.leave := by
  have hd : s.Diverts o := .inl ⟨.word 0x00EE, by decide, h⟩
  unfold leave
  cases hp : s.stack.pop? with
  | none => exact stop_confined (.inr ⟨h, CallStack.pop?_eq_none_iff.1 hp⟩) hd _
  | some p =>
    have hsome : 0 < s.stack.pointer := CallStack.pointer_pos_of_pop? hp
    exact ((Confined.refl s o).setStack (.inr ⟨h, hsome⟩) p.1).setPc hd p.2

theorem alu_confined (h : o.family.val = 0x8) (op : AluOp) (y : Fin 16) : Confined s o (s.alu op o.x y) := by
  have hx : o.Writes o.x := .inl ⟨rfl, .family 0x8, by decide, h⟩
  have hflag : o.Writes Registers.flag := .inr (.inl ⟨rfl, .family 0x8, by decide, h⟩)
  unfold alu
  rcases op.apply s.dialect (s.v o.x) (s.v y) with ⟨r, _ | f⟩
  · exact (Confined.refl s o).setRegister hx r
  · exact ((Confined.refl s o).setRegister hx r).setRegister hflag f

theorem draw_confined (h : o.family.val = 0xD) (x y n : Fin 16) : Confined s o (s.draw x y n) := by
  have hflag : o.Writes Registers.flag := .inr (.inl ⟨rfl, .family 0xD, by decide, h⟩)
  unfold draw
  rcases s.screen.draw s.spriteBytes (s.v x).toNat (s.v y).toNat n.val with ⟨screen, collision⟩
  exact ((Confined.refl s o).setScreen ⟨.family 0xD, by decide, h⟩ screen).setRegister hflag _

theorem awaitKey_confined (h : o.family.val = 0xF ∧ o.byte.toNat = 0x0A) : Confined s o (s.awaitKey o.x) := by
  have hfits : o.OneOf [.low 0xF 0x0A] := ⟨.low 0xF 0x0A, by decide, h⟩
  unfold awaitKey
  cases hk : s.keypad.lowest? with
  | some k => exact (Confined.refl s o).setRegister (.inl ⟨rfl, .low 0xF 0x0A, by decide, h⟩) _
  | none =>
    have hw : s.Suspends o := ⟨hfits, s.keypad.lowest?_eq_none_iff.1 hk⟩
    exact { (Confined.refl s o).setPc (.inr (.inr hw)) (s.pc - 2) with
      waiting := fun _ => hw, keyRegister := fun _ => hw }

/-- A transfer of registers moves the index register only in the dialects that say so. -/
theorem Confined.indexAfter {t : State} (ht : Confined s o t) (h : o.OneOf [.low 0xF 0x55, .low 0xF 0x65])
    (x : Fin 16) : Confined s o { t with index := s.indexAfter x } := by
  refine { ht with index := fun hne => .inr ⟨h, ?_⟩ }
  by_contra hstays
  refine hne ?_
  simp [State.indexAfter, hstays]

theorem storeRegisters_confined (h : o.family.val = 0xF ∧ o.byte.toNat = 0x55) (x : Fin 16) :
    Confined s o (s.storeRegisters x) := by
  have hstore : Confined s o { s with memory := (s.storeRegisters x).memory } :=
    (Confined.refl s o).setMemory ⟨.low 0xF 0x55, by decide, h⟩ _
  exact hstore.indexAfter ⟨.low 0xF 0x55, by decide, h⟩ x

theorem loadRegisters_confined (h : o.family.val = 0xF ∧ o.byte.toNat = 0x65) : Confined s o (s.loadRegisters o.x) := by
  have hload : Confined s o { s with registers := (s.loadRegisters o.x).registers } := by
    refine { Confined.refl s o with registers := fun r hr => .inr (.inr ⟨?_, .low 0xF 0x65, by decide, h⟩) }
    by_contra hr'
    refine hr ?_
    simp [v, Registers.read, loadRegisters, hr']
  exact hload.indexAfter ⟨.low 0xF 0x65, by decide, h⟩ o.x

/-- Whatever an opcode encodes leads to a state confined to the opcode. -/
theorem execute_confined {i : Instruction} (h : o.Encodes i) : Confined s o (s.execute i) := by
  have hself : Confined s o s := .refl s o
  cases i with
  | nothing => exact hself
  | clearScreen => exact hself.setScreen ⟨.word 0x00E0, by decide, h⟩ _
  | leave => exact leave_confined h
  | call a => exact call_confined h.1 a
  | jump a => exact hself.setPc (.inl ⟨.family 0x1, by decide, h.1⟩) _
  | jumpOffset a x => exact hself.setPc (.inl ⟨.family 0xB, by decide, h.1⟩) _
  | skipIfByte x b =>
    obtain ⟨hf, rfl, rfl⟩ := h
    exact skip_confined fun hc => .inl ⟨hf, by simpa using hc⟩
  | skipUnlessByte x b =>
    obtain ⟨hf, rfl, rfl⟩ := h
    exact skip_confined fun hc => .inr (.inl ⟨hf, by simpa using hc⟩)
  | skipIfSame x y =>
    obtain ⟨hf, rfl, rfl⟩ := h
    exact skip_confined fun hc => .inr (.inr (.inl ⟨hf, by simpa using hc⟩))
  | skipUnlessSame x y =>
    obtain ⟨hf, rfl, rfl⟩ := h
    exact skip_confined fun hc => .inr (.inr (.inr (.inl ⟨hf, by simpa using hc⟩)))
  | skipIfKey x =>
    obtain ⟨hf, hb, rfl⟩ := h
    exact skip_confined fun hc =>
      .inr (.inr (.inr (.inr (.inl ⟨⟨.low 0xE 0x9E, by decide, hf, hb⟩, s.keyDown_eq o.x ▸ hc⟩))))
  | skipUnlessKey x =>
    obtain ⟨hf, hb, rfl⟩ := h
    exact skip_confined fun hc =>
      .inr (.inr (.inr (.inr (.inr ⟨⟨.low 0xE 0xA1, by decide, hf, hb⟩, by simpa [keyDown_eq] using hc⟩))))
  | setByte x b =>
    obtain ⟨hf, rfl, -⟩ := h
    exact hself.setRegister (.inl ⟨rfl, .family 0x6, by decide, hf⟩) _
  | addByte x b =>
    obtain ⟨hf, rfl, -⟩ := h
    exact hself.setRegister (.inl ⟨rfl, .family 0x7, by decide, hf⟩) _
  | alu op x y =>
    obtain ⟨hf, -, rfl, -⟩ := h
    exact alu_confined hf op y
  | setIndex a => exact hself.setIndex (.inl ⟨.family 0xA, by decide, h.1⟩) _
  | random x m =>
    obtain ⟨hf, rfl, -⟩ := h
    have hkey : Confined s o { s with randomKey := s.randomKey.next } :=
      { hself with randomKey := fun _ => ⟨.family 0xC, by decide, hf⟩ }
    exact hkey.setRegister (.inl ⟨rfl, .family 0xC, by decide, hf⟩) _
  | draw x y n => exact draw_confined h.1 x y n
  | readDelay x =>
    obtain ⟨hf, hb, rfl⟩ := h
    exact hself.setRegister (.inl ⟨rfl, .low 0xF 0x07, by decide, hf, hb⟩) _
  | awaitKey x =>
    obtain ⟨hf, hb, rfl⟩ := h
    exact awaitKey_confined ⟨hf, hb⟩
  | setDelay x => exact { hself with delay := fun _ => ⟨.low 0xF 0x15, by decide, h.1, h.2.1⟩ }
  | setSound x => exact { hself with sound := fun _ => ⟨.low 0xF 0x18, by decide, h.1, h.2.1⟩ }
  | addIndex x => exact hself.setIndex (.inl ⟨.low 0xF 0x1E, by decide, h.1, h.2.1⟩) _
  | pointGlyph x => exact hself.setIndex (.inl ⟨.low 0xF 0x29, by decide, h.1, h.2.1⟩) _
  | storeDecimal x => exact hself.setMemory ⟨.low 0xF 0x33, by decide, h.1, h.2.1⟩ _
  | storeRegisters x => exact storeRegisters_confined ⟨h.1, h.2.1⟩ x
  | loadRegisters x =>
    obtain ⟨hf, hb, rfl⟩ := h
    exact loadRegisters_confined ⟨hf, hb⟩

/-- Executing any opcode, assigned or not, leads to a state confined to it. -/
theorem executed_confined (s : State) (o : Opcode) : Confined s o (s.execute (Instruction.decode o)) := by
  by_cases hi : Instruction.decode o = .nothing
  · rw [hi]
    exact .refl s o
  · exact execute_confined (Instruction.encodes_of_decode rfl hi)

theorem step_confined (hr : s.Running) : Confined s.advance s.peek s.step := by
  rw [step_of_running hr]
  exact executed_confined s.advance s.peek

/-! ## Instructions that are not completed -/

theorem execute_of_refuses (h : s.Refuses o) : ∃ f, s.execute (Instruction.decode o) = s.stop f := by
  rcases h with ⟨ho, hp⟩ | ⟨ho, hp⟩
  · refine ⟨.stackOverflow, ?_⟩
    rw [s.execute_of_encodes (i := .call o.address) ⟨ho, rfl⟩]
    simp only [execute, call, CallStack.push?_eq_none_iff.2 hp]
  · refine ⟨.stackUnderflow, ?_⟩
    rw [s.execute_of_encodes (i := .leave) ho]
    simp only [execute, leave, CallStack.pop?_eq_none_iff.2 hp]

theorem execute_of_suspends (h : s.Suspends o) : s.execute (Instruction.decode o) = s.suspend o.x := by
  obtain ⟨⟨p, hp, hfits⟩, hk⟩ := h
  obtain rfl := List.mem_singleton.1 hp
  rw [s.execute_of_encodes (i := .awaitKey o.x) ⟨hfits.1, hfits.2, rfl⟩]
  simp only [execute, awaitKey, s.keypad.lowest?_eq_none_iff.2 hk]
  rfl

/-- Of all parts of the state, an instruction changes only those its opcode may write. It leaves the dialect
and the keypad alone in any case; and where it is refused by the stack or begins to wait for a key, it changes
nothing but the program counter and the latch, or the program counter and what the wait notes down. -/
theorem execute_writes_only (s : State) (o : Opcode) :
    let t := s.execute (Instruction.decode o)
    Confined s o t ∧
    (s.Refuses o → t = { s with pc := s.pc - 2, fault := t.fault }) ∧
    (s.Suspends o → t = { s with pc := s.pc - 2, waiting := t.waiting, keyRegister := t.keyRegister }) := by
  refine ⟨executed_confined s o, fun h => ?_, fun h => ?_⟩
  · obtain ⟨f, hstop⟩ := execute_of_refuses h
    rw [hstop]
    rfl
  · rw [execute_of_suspends h]
    rfl

end State

end Chip8
