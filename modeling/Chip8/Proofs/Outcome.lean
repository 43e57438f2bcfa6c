/-
What a step can do. Only five kinds of steps touch the stack, the fault latch or the key wait: a
call, a return, either of them refused by the stack, the start of a key wait and its end. Every
other instruction leaves them, the keypad and the dialect as they are (`SameControl`). `Outcome`
lists the cases for one instruction and `Stepped` those for a whole step; invariants are proved by
going through these cases.
-/
import Chip8.Proofs.Decode
import Chip8.Step

namespace Chip8.State

/-! ## What most instructions leave alone -/

/-- Two states agree on everything that decides whether and how the machine goes on, save for the
program counter and what it points to. -/
structure SameControl (s t : State) : Prop where
  dialect : t.dialect = s.dialect
  stack : t.stack = s.stack
  keypad : t.keypad = s.keypad
  waiting : t.waiting = s.waiting
  keyRegister : t.keyRegister = s.keyRegister
  fault : t.fault = s.fault

/-- The machine is neither stopped nor waiting: its next step executes an instruction. -/
structure Running (s : State) : Prop where
  fault : s.fault = 0
  waiting : s.waiting = false

theorem SameControl.refl (s : State) : SameControl s s := ⟨rfl, rfl, rfl, rfl, rfl, rfl⟩

theorem SameControl.running {s t : State} (h : SameControl s t) (hs : s.Running) : t.Running :=
  ⟨h.fault.trans hs.fault, h.waiting.trans hs.waiting⟩

theorem skip_sameControl (s : State) (c : Bool) : SameControl s (s.skip c) := by
  cases c
  · exact SameControl.refl s
  · exact ⟨rfl, rfl, rfl, rfl, rfl, rfl⟩

theorem alu_sameControl (s : State) (op : AluOp) (x y : Fin 16) : SameControl s (s.alu op x y) := by
  unfold alu
  rcases op.apply s.dialect (s.v x) (s.v y) with ⟨r, _ | f⟩ <;> exact ⟨rfl, rfl, rfl, rfl, rfl, rfl⟩

theorem draw_sameControl (s : State) (x y n : Fin 16) : SameControl s (s.draw x y n) := by
  unfold draw
  rcases s.screen.draw s.spriteBytes (s.v x).toNat (s.v y).toNat n.val with ⟨screen, collision⟩
  exact ⟨rfl, rfl, rfl, rfl, rfl, rfl⟩

theorem storeRegisters_sameControl (s : State) (x : Fin 16) : SameControl s (s.storeRegisters x) := by
  unfold storeRegisters
  exact ⟨rfl, rfl, rfl, rfl, rfl, rfl⟩

theorem loadRegisters_sameControl (s : State) (x : Fin 16) : SameControl s (s.loadRegisters x) := by
  unfold loadRegisters
  exact ⟨rfl, rfl, rfl, rfl, rfl, rfl⟩

/-! ## One instruction -/

/-- The state in which the machine has begun to wait for a key. -/
def suspend (s : State) (x : Fin 16) : State :=
  { s with pc := s.pc - 2, waiting := true, keyRegister := UInt8.ofNat x }

/-- What executing an instruction comes to. -/
inductive Outcome (s : State) : Instruction → State → Prop where
  | plain {i : Instruction} {t : State} (hcall : ∀ a, i ≠ .call a) (hleave : i ≠ .leave)
      (hkey : ∀ x, i ≠ .awaitKey x) (h : SameControl s t) : Outcome s i t
  | called {a : UInt16} {stack : CallStack} (h : s.stack.push? s.pc = some stack) :
      Outcome s (.call a) { s with stack, pc := a }
  | overflow {a : UInt16} (h : s.stack.push? s.pc = none) : Outcome s (.call a) (s.stop .stackOverflow)
  | returned {stack : CallStack} {a : UInt16} (h : s.stack.pop? = some (stack, a)) :
      Outcome s .leave { s with stack, pc := a }
  | underflow (h : s.stack.pop? = none) : Outcome s .leave (s.stop .stackUnderflow)
  | pressed {x k : Fin 16} (h : s.keypad.lowest? = some k) :
      Outcome s (.awaitKey x) (s.setRegister x (UInt8.ofNat k))
  | wait {x : Fin 16} (h : s.keypad.lowest? = none) : Outcome s (.awaitKey x) (s.suspend x)

theorem call_outcome (s : State) (a : UInt16) : Outcome s (.call a) (s.call a) := by
  unfold call
  cases h : s.stack.push? s.pc with
  | none => exact .overflow h
  | some stack => exact .called h

theorem leave_outcome (s : State) : Outcome s .leave s.leave := by
  unfold leave
  cases h : s.stack.pop? with
  | none => exact .underflow h
  | some p => exact .returned h

theorem awaitKey_outcome (s : State) (x : Fin 16) : Outcome s (.awaitKey x) (s.awaitKey x) := by
  unfold awaitKey
  cases h : s.keypad.lowest? with
  | none => exact .wait h
  | some k => exact .pressed h

theorem execute_outcome (s : State) (i : Instruction) : Outcome s i (s.execute i) := by
  cases i with
  | call a => exact call_outcome s a
  | leave => exact leave_outcome s
  | awaitKey x => exact awaitKey_outcome s x
  | skipIfByte | skipUnlessByte | skipIfSame | skipUnlessSame | skipIfKey | skipUnlessKey =>
    exact .plain nofun nofun nofun (skip_sameControl s _)
  | alu op x y => exact .plain nofun nofun nofun (alu_sameControl s op x y)
  | draw x y n => exact .plain nofun nofun nofun (draw_sameControl s x y n)
  | storeRegisters x => exact .plain nofun nofun nofun (storeRegisters_sameControl s x)
  | loadRegisters x => exact .plain nofun nofun nofun (loadRegisters_sameControl s x)
  | _ => exact .plain nofun nofun nofun ⟨rfl, rfl, rfl, rfl, rfl, rfl⟩

/-! ## One step -/

/-- The state in which the machine has got the key it waited for. -/
def resume (s : State) (k : Fin 16) : State :=
  { s with
    registers := if h : s.keyRegister.toNat < 16 then
        s.registers.write ⟨s.keyRegister.toNat, h⟩ (UInt8.ofNat k)
      else s.registers
    waiting := false
    pc := s.pc + 2 }

/-- What a step comes to. -/
inductive Stepped (s : State) : State → Prop where
  | stopped (hf : s.fault ≠ 0) : Stepped s s
  | idle (hf : s.fault = 0) (hw : s.waiting = true) (hk : s.keypad.lowest? = none) : Stepped s s
  | resumed {k : Fin 16} (hf : s.fault = 0) (hw : s.waiting = true) (hk : s.keypad.lowest? = some k) :
      Stepped s (s.resume k)
  | executed {i : Instruction} {t : State} (hr : s.Running) (hi : Instruction.decode s.peek = i)
      (h : Outcome s.advance i t) : Stepped s t

theorem step_of_running {s : State} (h : s.Running) : s.step = s.cycle := by
  unfold step
  rw [h.fault, h.waiting]
  simp

theorem step_of_stopped {s : State} (h : s.fault ≠ 0) : s.step = s := by
  simp [step, h]

theorem step_stepped (s : State) : Stepped s s.step := by
  by_cases hf : s.fault = 0
  · cases hw : s.waiting with
    | false =>
      rw [step_of_running ⟨hf, hw⟩]
      exact .executed ⟨hf, hw⟩ rfl (execute_outcome s.advance _)
    | true =>
      have hstep : s.step = s.pollKey := by simp [step, hf, hw]
      rw [hstep]
      unfold pollKey
      cases hk : s.keypad.lowest? with
      | none => exact .idle hf hw hk
      | some k => exact .resumed hf hw hk
  · rw [step_of_stopped hf]
    exact .stopped hf

theorem execute_of_encodes (s : State) {o : Opcode} {i : Instruction} (h : o.Encodes i) :
    s.execute (Instruction.decode o) = s.execute i :=
  congrArg s.execute (Instruction.decode_of_encodes h)

theorem step_of_encodes {s : State} (hr : s.Running) {i : Instruction} (h : s.peek.Encodes i) :
    s.step = s.advance.execute i :=
  (step_of_running hr).trans (s.advance.execute_of_encodes h)

/-- A step that executes nothing ends a wait or does not change the state at all. -/
theorem step_of_still {s : State} (h : ¬ s.Running) : s.step = s ∨ ∃ k, s.step = s.resume k := by
  have hstep := step_stepped s
  generalize s.step = t at hstep ⊢
  cases hstep with
  | stopped | idle => exact .inl rfl
  | @resumed k => exact .inr ⟨k, rfl⟩
  | executed hr => exact absurd hr h

/-! ## What the program counter points to -/

theorem peek_congr {s t : State} (hpc : t.pc = s.pc) (hm : t.memory = s.memory) : t.peek = s.peek := by
  unfold peek
  rw [hpc, hm]

/-- Where an instruction goes back by its own length, it goes back to itself. -/
theorem advance_pc_sub (s : State) : s.advance.pc - 2 = s.pc := UInt16.add_sub_cancel s.pc 2

theorem peek_of_back {s t : State} (hpc : t.pc = s.advance.pc - 2) (hm : t.memory = s.memory) : t.peek = s.peek :=
  peek_congr (hpc.trans s.advance_pc_sub) hm

/-- The state with an opcode where the program counter points to. -/
def withOpcode (s : State) (high low : UInt8) : State :=
  { s with memory := (s.memory.write s.pc.toNat high).write (s.pc.toNat + 1) low }

@[simp] theorem peek_withOpcode (s : State) (high low : UInt8) :
    (s.withOpcode high low).peek = Opcode.ofBytes high low := by
  have hne : s.pc.toNat % 4096 ≠ (s.pc.toNat + 1) % 4096 := by omega
  have hhigh : (s.withOpcode high low).memory.read s.pc.toNat = high := by
    rw [withOpcode, Memory.read_write_of_ne _ _ hne, Memory.read_write_self]
  have hlow : (s.withOpcode high low).memory.read (s.pc.toNat + 1) = low := Memory.read_write_self ..
  exact congrArg₂ Opcode.ofBytes hhigh hlow

end Chip8.State
