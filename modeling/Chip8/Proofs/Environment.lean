/-
The environment of a program: the random key, the timers and the keypad. Two machines that agree on all
else run the same program in the same way, each in its own environment, as long as no instruction is executed
that asks for a part of it. The driver may tick the timers and press keys as it likes, differently for each of
the two: nothing else lets the environment into the program.
-/
import Chip8.Proofs.Signal
import Chip8.Proofs.Writes

namespace Chip8

/-! ## Asking -/

/-- The opcodes that ask for a random number, for a key or for the delay timer. -/
def Pattern.asking : List Pattern := [family 0xC, low 0xE 0x9E, low 0xE 0xA1, low 0xF 0x0A, low 0xF 0x07]

def Instruction.Asks : Instruction → Prop
  | random .. | skipIfKey _ | skipUnlessKey _ | awaitKey _ | readDelay _ => True
  | _ => False

theorem Opcode.asking_of_encodes {o : Opcode} {i : Instruction} (h : o.Encodes i) (hi : i.Asks) :
    o.OneOf Pattern.asking := by
  cases i with
  | random => exact ⟨.family 0xC, by decide, h.1⟩
  | skipIfKey | skipUnlessKey | awaitKey | readDelay => exact ⟨.low _ _, by decide, h.1, h.2.1⟩
  | _ => cases hi

theorem Opcode.not_asks {o : Opcode} (h : ¬ o.OneOf Pattern.asking) : ¬ (Instruction.decode o).Asks := by
  intro hi
  refine h (asking_of_encodes (Instruction.encodes_of_decode rfl ?_) hi)
  intro hnothing
  rw [hnothing] at hi
  exact hi

namespace State

/-! ## The same program in two environments -/

/-- Two states that agree on all that belongs to the program, and neither of which waits for a key. -/
structure SameProgram (s t : State) : Prop where
  dialect : t.dialect = s.dialect
  memory : t.memory = s.memory
  registers : t.registers = s.registers
  index : t.index = s.index
  pc : t.pc = s.pc
  screen : t.screen = s.screen
  stack : t.stack = s.stack
  fault : t.fault = s.fault
  keyRegister : t.keyRegister = s.keyRegister
  awake : s.waiting = false
  awake' : t.waiting = false

/-- The state with another environment. -/
def surrounded (s : State) (randomKey : RandomKey) (delay sound : UInt8) (keypad : Keypad) : State :=
  { s with randomKey, delay, sound, keypad }

section

variable {s : State} {randomKey : RandomKey} {delay sound : UInt8} {keypad : Keypad} (hw : s.waiting = false)

include hw

theorem same_surrounded : SameProgram s (s.surrounded randomKey delay sound keypad) :=
  ⟨rfl, rfl, rfl, rfl, rfl, rfl, rfl, rfl, rfl, hw, hw⟩

theorem skip_surrounded (c : Bool) :
    SameProgram (s.skip c) ((s.surrounded randomKey delay sound keypad).skip c) := by
  cases c <;> exact same_surrounded hw

theorem call_surrounded (a : UInt16) :
    SameProgram (s.call a) ((s.surrounded randomKey delay sound keypad).call a) := by
  unfold call
  simp only [surrounded]
  cases s.stack.push? s.pc <;> exact same_surrounded hw

theorem leave_surrounded : SameProgram s.leave (s.surrounded randomKey delay sound keypad).leave := by
  unfold leave
  simp only [surrounded]
  cases s.stack.pop? <;> exact same_surrounded hw

theorem alu_surrounded (op : AluOp) (x y : Fin 16) :
    SameProgram (s.alu op x y) ((s.surrounded randomKey delay sound keypad).alu op x y) := by
  unfold alu
  simp only [surrounded, v]
  rcases op.apply s.dialect (s.registers.read x) (s.registers.read y) with ⟨r, _ | f⟩ <;> exact same_surrounded hw

theorem draw_surrounded (x y n : Fin 16) :
    SameProgram (s.draw x y n) ((s.surrounded randomKey delay sound keypad).draw x y n) := by
  have hbytes : (s.surrounded randomKey delay sound keypad).spriteBytes = s.spriteBytes := rfl
  unfold draw
  rw [hbytes]
  simp only [surrounded, v]
  rcases s.screen.draw s.spriteBytes (s.registers.read x).toNat (s.registers.read y).toNat n.val with ⟨screen, c⟩
  exact same_surrounded hw

theorem storeRegisters_surrounded (x : Fin 16) :
    SameProgram (s.storeRegisters x) ((s.surrounded randomKey delay sound keypad).storeRegisters x) := by
  have hbytes : (s.surrounded randomKey delay sound keypad).storeWindow x = s.storeWindow x := rfl
  unfold storeRegisters
  rw [hbytes]
  exact same_surrounded hw

end

namespace SameProgram

variable {s t : State}

theorem exists_surrounded (h : SameProgram s t) :
    ∃ randomKey delay sound keypad, t = s.surrounded randomKey delay sound keypad := by
  refine ⟨t.randomKey, t.delay, t.sound, t.keypad, ?_⟩
  obtain ⟨h1, h2, h3, h4, h5, h6, h7, h8, h9, h10, h11⟩ := h
  cases t
  simp only at h1 h2 h3 h4 h5 h6 h7 h8 h9 h11
  subst h1 h2 h3 h4 h5 h6 h7 h8 h9
  rw [surrounded, h10, h11]

/-- An instruction that does not ask does the same in both environments. -/
theorem execute (h : SameProgram s t) {i : Instruction} (hi : ¬ i.Asks) : SameProgram (s.execute i) (t.execute i) := by
  have hw := h.awake
  obtain ⟨randomKey, delay, sound, keypad, rfl⟩ := h.exists_surrounded
  cases i with
  | random | skipIfKey | skipUnlessKey | awaitKey | readDelay => exact absurd trivial hi
  | call a => exact call_surrounded hw a
  | leave => exact leave_surrounded hw
  | alu op x y => exact alu_surrounded hw op x y
  | draw x y n => exact draw_surrounded hw x y n
  | storeRegisters x => exact storeRegisters_surrounded hw x
  | skipIfByte | skipUnlessByte | skipIfSame | skipUnlessSame => exact skip_surrounded hw _
  -- both machines write the same byte into the timer, whatever it showed before
  | setDelay | setSound => exact same_surrounded hw
  | _ => exact same_surrounded hw

/-- A step does the same in both environments, unless it executes an instruction that asks. -/
theorem step (h : SameProgram s t) (hq : s.Running → ¬ s.peek.OneOf Pattern.asking) : SameProgram s.step t.step := by
  by_cases hf : s.fault = 0
  · have hs : s.Running := ⟨hf, h.awake⟩
    have ht : t.Running := ⟨h.fault.trans hf, h.awake'⟩
    have hadvance : SameProgram s.advance t.advance := { h with pc := congrArg (· + 2) h.pc }
    rw [step_of_running hs, step_of_running ht, cycle, cycle, peek_congr h.pc h.memory]
    exact hadvance.execute (Opcode.not_asks (hq hs))
  · have hf' : t.fault ≠ 0 := by rwa [h.fault]
    rw [step_of_stopped hf, step_of_stopped hf']
    exact h

/-! ## Runs -/

theorem receive_left (h : SameProgram s t) {e : Signal} (he : e ≠ .step) : SameProgram (s.receive e) t := by
  cases e with
  | step => exact absurd rfl he
  | tick | keys => exact { h with awake := h.awake }

theorem receive_right (h : SameProgram s t) {e : Signal} (he : e ≠ .step) : SameProgram s (t.receive e) := by
  cases e with
  | step => exact absurd rfl he
  | tick | keys => exact { h with awake := h.awake }

/-- Between the steps the driver may do in one of the environments what it likes. -/
theorem play_right (h : SameProgram s t) {fs : List Signal} (hfs : .step ∉ fs) : SameProgram s (t.play fs) := by
  induction fs generalizing t with
  | nil => exact h
  | cons f fs ih =>
    rw [List.mem_cons, not_or] at hfs
    exact ih (h.receive_right (Ne.symm hfs.1)) hfs.2

end SameProgram

theorem steps_eq_zero {es : List Signal} (h : .step ∉ es) : Signal.steps es = 0 := by
  refine List.countP_eq_zero.2 fun e he => ?_
  cases e with
  | step => exact absurd he h
  | tick | keys => exact Bool.false_ne_true

/-- Up to its first step, a run only moves the environment. -/
theorem exists_first_step {fs : List Signal} (h : 0 < Signal.steps fs) :
    ∃ pre post, fs = pre ++ .step :: post ∧ .step ∉ pre ∧ Signal.steps fs = Signal.steps post + 1 := by
  have hmem : .step ∈ fs := by
    by_contra hnone
    rw [steps_eq_zero hnone] at h
    exact Nat.lt_irrefl 0 h
  obtain ⟨pre, post, rfl, hpre⟩ := List.eq_append_cons_of_mem hmem
  refine ⟨pre, post, rfl, hpre, ?_⟩
  have hzero := steps_eq_zero hpre
  unfold Signal.steps at hzero ⊢
  rw [List.countP_append, hzero, Nat.zero_add]
  exact Signal.steps_step post

theorem SameProgram.play {s t : State} (h : SameProgram s t) {es fs : List Signal}
    (hn : Signal.steps fs = Signal.steps es) (hq : ∀ o ∈ s.executed es, ¬ o.OneOf Pattern.asking) :
    SameProgram (s.play es) (t.play fs) := by
  induction es generalizing s t fs with
  | nil =>
    refine h.play_right fun hmem => ?_
    have hpos : 0 < Signal.steps fs := List.countP_pos_iff.2 ⟨.step, hmem, rfl⟩
    rw [hn] at hpos
    exact Nat.lt_irrefl 0 hpos
  | cons e es ih =>
    rw [executed] at hq
    have hrest : ∀ o ∈ (s.receive e).executed es, ¬ o.OneOf Pattern.asking := fun o ho =>
      hq o (List.mem_append_right _ ho)
    cases e with
    | step =>
      rw [Signal.steps_step] at hn
      -- the second run comes to its next step too, after what its driver does before
      have hpos : 0 < Signal.steps fs := by omega
      obtain ⟨pre, post, rfl, hpre, hpost⟩ := exists_first_step hpos
      have hstep : SameProgram s.step (t.play pre).step := by
        refine (h.play_right hpre).step fun hr => hq _ (List.mem_append_left _ ?_)
        simp [executes, hr]
      rw [play_append]
      exact ih hstep (by omega) hrest
    | tick => exact ih (h.receive_left (e := .tick) (by simp)) (by simpa using hn) hrest
    | keys keypad => exact ih (h.receive_left (e := .keys keypad) (by simp)) (by simpa using hn) hrest

/-- Let two machines agree on all but their environments, and neither wait for a key. In a run of the first
let no instruction be executed that asks for a random number, a key or the delay timer. Then at every point of
this run it still agrees, and neither waits, with the second machine after any run of as many steps, whatever
ticks and keypads each of the two gets between the steps. -/
theorem environment_enters_by_asking {s t : State} (h : SameProgram s t) {es : List Signal}
    (hq : ∀ o ∈ s.executed es, ¬ o.OneOf Pattern.asking) {es' : List Signal} (hes : es' <+: es) {fs : List Signal}
    (hn : Signal.steps fs = Signal.steps es') : SameProgram (s.play es') (t.play fs) := by
  obtain ⟨later, rfl⟩ := hes
  rw [executed_append] at hq
  exact h.play hn fun o ho => hq o (List.mem_append_left _ ho)

/-- A machine whose program draws a digit, sets both timers and counts, over and over. -/
def atCounter : State :=
  { powerOn ⟨false, false, false, false⟩ ⟨0, 0⟩ with
    memory := Memory.initial.writeAll Memory.programStart
      [0xD1, 0x25, 0xF1, 0x15, 0xF1, 0x18, 0x71, 0x01, 0x12, 0x00] }

/-- The same machine with another random key, timers that run and two keys down. -/
def atCounterElsewhere : State := atCounter.surrounded ⟨7, 9⟩ 3 200 (Keypad.ofDown [1, 12])

def counting : List Signal := [.tick, .step, .step, .keys (Keypad.ofDown [5]), .step, .step, .tick, .tick, .step, .step]

/-- The first four steps of the run, in another schedule. -/
def countingElsewhere : List Signal :=
  [.step, .keys Keypad.released, .step, .step, .tick, .keys (Keypad.ofDown [0]), .step]

/-- After four steps both machines have drawn, set their timers and counted to 1. -/
theorem environment_enters_by_asking_at_counter :
    SameProgram (atCounter.play (counting.take 6)) (atCounterElsewhere.play countingElsewhere) := by
  have hsame : SameProgram atCounter atCounterElsewhere := same_surrounded rfl
  have hq : ∀ o ∈ atCounter.executed counting, ¬ o.OneOf Pattern.asking := by decide +kernel
  have hsteps : Signal.steps countingElsewhere = Signal.steps (counting.take 6) := rfl
  exact environment_enters_by_asking hsame hq (List.take_prefix 6 counting) hsteps

end State

end Chip8
