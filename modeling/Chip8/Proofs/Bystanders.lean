/-
The random key and the timers stand by while a program runs: few instructions look at them or write to them.
A change of these three, whatever it is, may be made before a step or after it, unless the step executes
an instruction that has to do with what is changed. A tick of the timers is such a change, and so is another
random key.
-/
import Chip8.Proofs.Signal
import Chip8.Proofs.Writes

namespace Chip8

/-- A change of the random key and of the timers. -/
structure Adjustment where
  key : RandomKey → RandomKey
  delay : UInt8 → UInt8
  sound : UInt8 → UInt8

/-- The opcode has nothing to do with what is changed. -/
structure Adjustment.Clears (a : Adjustment) (o : Opcode) : Prop where
  key : o.OneOf [.family 0xC] → a.key = id
  delay : o.OneOf [.low 0xF 0x07, .low 0xF 0x15] → a.delay = id
  sound : o.OneOf [.low 0xF 0x18] → a.sound = id

namespace State

def adjust (s : State) (a : Adjustment) : State :=
  { s with randomKey := a.key s.randomKey, delay := a.delay s.delay, sound := a.sound s.sound }

/-! ## One instruction -/

section

variable (s : State) (a : Adjustment)

theorem skip_adjust (c : Bool) : (s.adjust a).skip c = (s.skip c).adjust a := by
  cases c <;> rfl

theorem call_adjust (target : UInt16) : (s.adjust a).call target = (s.call target).adjust a := by
  unfold call
  simp only [adjust]
  cases s.stack.push? s.pc <;> rfl

theorem leave_adjust : (s.adjust a).leave = s.leave.adjust a := by
  unfold leave
  simp only [adjust]
  cases s.stack.pop? <;> rfl

theorem alu_adjust (op : AluOp) (x y : Fin 16) : (s.adjust a).alu op x y = (s.alu op x y).adjust a := by
  unfold alu
  simp only [adjust, v]
  rcases op.apply s.dialect (s.registers.read x) (s.registers.read y) with ⟨r, _ | f⟩ <;> rfl

theorem draw_adjust (x y n : Fin 16) : (s.adjust a).draw x y n = (s.draw x y n).adjust a := by
  have hbytes : (s.adjust a).spriteBytes = s.spriteBytes := rfl
  unfold draw
  rw [hbytes]
  simp only [adjust, v]
  rcases s.screen.draw s.spriteBytes (s.registers.read x).toNat (s.registers.read y).toNat n.val with ⟨screen, c⟩
  rfl

theorem storeRegisters_adjust (x : Fin 16) : (s.adjust a).storeRegisters x = (s.storeRegisters x).adjust a := by
  have hbytes : (s.adjust a).storeWindow x = s.storeWindow x := rfl
  unfold storeRegisters
  rw [hbytes]
  rfl

theorem awaitKey_adjust (x : Fin 16) : (s.adjust a).awaitKey x = (s.awaitKey x).adjust a := by
  unfold awaitKey
  simp only [adjust]
  cases s.keypad.lowest? <;> rfl

theorem pollKey_adjust : (s.adjust a).pollKey = s.pollKey.adjust a := by
  unfold pollKey
  simp only [adjust]
  cases s.keypad.lowest? <;> rfl

end

theorem execute_adjust (s : State) {a : Adjustment} {o : Opcode} (h : a.Clears o) :
    (s.adjust a).execute (Instruction.decode o) = (s.execute (Instruction.decode o)).adjust a := by
  cases hi : Instruction.decode o with
  | random x mask =>
    have ho := Instruction.encodes_of_decode hi (by simp)
    have hkey := h.key ⟨.family 0xC, by decide, ho.1⟩
    simp only [execute, adjust, hkey]
    rfl
  | readDelay x | setDelay x =>
    have ho := Instruction.encodes_of_decode hi (by simp)
    have hdelay := h.delay ⟨.low _ _, by decide, ho.1, ho.2.1⟩
    simp only [execute, adjust, hdelay]
    rfl
  | setSound x =>
    have ho := Instruction.encodes_of_decode hi (by simp)
    have hsound := h.sound ⟨.low _ _, by decide, ho.1, ho.2.1⟩
    simp only [execute, adjust, hsound]
    rfl
  | call target => exact s.call_adjust a target
  | leave => exact s.leave_adjust a
  | alu op x y => exact s.alu_adjust a op x y
  | draw x y n => exact s.draw_adjust a x y n
  | awaitKey x => exact s.awaitKey_adjust a x
  | storeRegisters x => exact s.storeRegisters_adjust a x
  | skipIfByte | skipUnlessByte | skipIfSame | skipUnlessSame | skipIfKey | skipUnlessKey => exact s.skip_adjust a _
  | _ => rfl

/-! ## One step -/

theorem running_adjust (s : State) (a : Adjustment) : (s.adjust a).Running ↔ s.Running :=
  ⟨fun h => ⟨h.fault, h.waiting⟩, fun h => ⟨h.fault, h.waiting⟩⟩

/-- A change may be made before a step or after it, unless the step executes an instruction that has to do
with what is changed. -/
theorem step_adjust {s : State} {a : Adjustment} (h : s.Running → a.Clears s.peek) :
    (s.adjust a).step = s.step.adjust a := by
  by_cases hr : s.Running
  · rw [step_of_running ((s.running_adjust a).2 hr), step_of_running hr]
    exact s.advance.execute_adjust (h hr)
  · -- a stopped machine stays as it is, and a waiting one only looks at its keypad
    unfold step
    simp only [show (s.adjust a).fault = s.fault from rfl, show (s.adjust a).waiting = s.waiting from rfl]
    split_ifs with hf hw
    · rfl
    · exact s.pollKey_adjust a
    · exact absurd ⟨not_not.1 hf, by simpa using hw⟩ hr

/-! ## Many steps -/

theorem run_adjust {s : State} {a : Adjustment} {n : Nat}
    (h : ∀ o ∈ s.executed (List.replicate n .step), a.Clears o) : run n (s.adjust a) = (run n s).adjust a := by
  induction n generalizing s with
  | zero => rfl
  | succ n ih =>
    rw [List.replicate_succ, executed, List.forall_mem_append] at h
    obtain ⟨hfirst, hrest⟩ := h
    have hstep : (s.adjust a).step = s.step.adjust a := step_adjust fun hr => hfirst _ (by simp [executes, hr])
    rw [run, run, hstep]
    exact ih hrest

end State

end Chip8
