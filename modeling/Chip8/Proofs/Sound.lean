/-
What holds of a machine after any history of operations. In every state the latch holds a fault or
nothing, the call stack is tidy, a stopped machine does not wait, and what the machine stopped at or
waits at still stands where the program counter points: FX0A with the register X that takes the key,
a call with the stack full, or a return with the stack empty.
-/
import Chip8.Machine
import Chip8.Proofs.Signal

namespace Chip8

namespace State

/-- The invariant of a machine in the hands of a driver. -/
structure Sound (s : State) : Prop where
  latch : s.fault = 0 ∨ s.fault = 1 ∨ s.fault = 2
  stack : s.stack.Tidy
  apart : ¬ (s.fault ≠ 0 ∧ s.waiting = true)
  wait : s.waiting = true → s.keyRegister ≤ 15 ∧
    s.peek.word = (0xF00A : UInt16) ||| (s.keyRegister.toUInt16 <<< 8)
  overflow : s.fault = 1 → s.stack.pointer = 16 ∧ s.peek.family.val = 0x2
  underflow : s.fault = 2 → s.stack.pointer = 0 ∧ s.peek.word = 0x00EE

/-! ## The four kinds of sound states -/

theorem Running.sound {s : State} (h : s.Running) (hs : s.stack.Tidy) : s.Sound := by
  have hf := h.fault
  have hw := h.waiting
  exact ⟨.inl hf, hs, by simp [hw], by simp [hw], by simp [hf], by simp [hf]⟩

theorem sound_of_wait {s : State} (hf : s.fault = 0) (hs : s.stack.Tidy) (hk : s.keyRegister ≤ 15)
    (ho : s.peek.word = (0xF00A : UInt16) ||| (s.keyRegister.toUInt16 <<< 8)) : s.Sound :=
  ⟨.inl hf, hs, by simp [hf], fun _ => ⟨hk, ho⟩, by simp [hf], by simp [hf]⟩

theorem sound_of_overflow {s : State} (hf : s.fault = 1) (hw : s.waiting = false) (hs : s.stack.Tidy)
    (hp : s.stack.pointer = 16) (ho : s.peek.family.val = 0x2) : s.Sound :=
  ⟨.inr (.inl hf), hs, by simp [hw], by simp [hw], fun _ => ⟨hp, ho⟩, by simp [hf]⟩

theorem sound_of_underflow {s : State} (hf : s.fault = 2) (hw : s.waiting = false) (hs : s.stack.Tidy)
    (hp : s.stack.pointer = 0) (ho : s.peek.word = 0x00EE) : s.Sound :=
  ⟨.inr (.inr hf), hs, by simp [hw], by simp [hw], by simp [hf], fun _ => ⟨hp, ho⟩⟩

theorem powerOn_sound (d : Dialect) (k : RandomKey) : (powerOn d k).Sound :=
  Running.sound ⟨rfl, rfl⟩ tidy_empty

/-! ## Steps -/

/-- The opcode that waits for a key and puts it into VX. -/
theorem word_of_awaitKey {o : Opcode} {x : Fin 16} (h : Instruction.decode o = .awaitKey x) :
    o.word = (0xF00A : UInt16) ||| ((UInt8.ofNat x).toUInt16 <<< 8) := by
  obtain ⟨hf, hb, rfl⟩ := Instruction.encodes_of_decode h nofun
  have hx : ∀ x : Fin 16,
      ((0xF00A : UInt16) ||| ((UInt8.ofNat x).toUInt16 <<< 8)).toNat = 0xF * 0x1000 + x.val * 0x100 + 0x0A := by
    decide
  rw [← UInt16.toNat_inj, o.word_toNat_eq, hx, hf, hb]

theorem keyNumber_le (x : Fin 16) : UInt8.ofNat x ≤ 15 := by
  revert x; decide

/-- What the machine stops or waits at is the instruction it has gone back to. -/
theorem executed_sound {s t : State} {i : Instruction} (hr : s.Running) (hs : s.stack.Tidy)
    (hi : Instruction.decode s.peek = i) (h : Outcome s.advance i t) : t.Sound := by
  have ht : t.stack.Tidy := h.tidy hs
  have hadv : s.advance.Running := ⟨hr.fault, hr.waiting⟩
  cases h with
  | plain _ _ _ h => exact (h.running hadv).sound ht
  | called | returned | pressed => exact Running.sound ⟨hr.fault, hr.waiting⟩ ht
  | overflow hfull =>
    have hp : s.stack.pointer = 16 := Int.le_antisymm hs.le (CallStack.push?_eq_none_iff.1 hfull)
    have ho : s.peek.family.val = 0x2 := (Instruction.encodes_of_decode hi nofun).1
    have hpeek : (s.advance.stop .stackOverflow).peek = s.peek := peek_of_back rfl rfl
    exact sound_of_overflow rfl hr.waiting ht hp (by rw [hpeek]; exact ho)
  | underflow hnone =>
    have hp : s.stack.pointer = 0 := Int.le_antisymm (CallStack.pop?_eq_none_iff.1 hnone) hs.nonneg
    have ho : s.peek.word = 0x00EE := Instruction.encodes_of_decode hi nofun
    have hpeek : (s.advance.stop .stackUnderflow).peek = s.peek := peek_of_back rfl rfl
    exact sound_of_underflow rfl hr.waiting ht hp (by rw [hpeek]; exact ho)
  | @wait x _ =>
    -- the register is in the opcode already, and the wait only copies its number
    have hpeek : (s.advance.suspend x).peek = s.peek := peek_of_back rfl rfl
    exact sound_of_wait hr.fault ht (keyNumber_le x) (by rw [hpeek]; exact word_of_awaitKey hi)

theorem step_sound {s : State} (hs : s.Sound) : s.step.Sound := by
  have h := step_stepped s
  generalize s.step = t at h ⊢
  cases h with
  | stopped | idle => exact hs
  | resumed hf => exact Running.sound ⟨hf, rfl⟩ hs.stack
  | executed hr hi h => exact executed_sound hr hs.stack hi h

theorem run_sound {s : State} (hs : s.Sound) : ∀ n, (run n s).Sound := by
  intro n
  induction n generalizing s with
  | zero => exact hs
  | succ n ih => exact ih (step_sound hs)

/-- Neither the timers nor the keypad matter to the invariant. -/
theorem tick_sound {s : State} (hs : s.Sound) : s.tick.Sound :=
  ⟨hs.latch, hs.stack, hs.apart, hs.wait, hs.overflow, hs.underflow⟩

theorem setKeys_sound {s : State} (hs : s.Sound) (keypad : Keypad) : (s.setKeys keypad).Sound :=
  ⟨hs.latch, hs.stack, hs.apart, hs.wait, hs.overflow, hs.underflow⟩

theorem frame_sound {s : State} (hs : s.Sound) (n : Nat) : (s.frame n).Sound :=
  tick_sound (run_sound hs n)

end State

namespace Machine

open State

/-! ## Operations -/

theorem settle_state (s : State) (r : Reply) : (Effect.settle s r).state = s := by
  unfold Effect.settle
  cases s.refusal? <;> rfl

/-- What an operation can make of a state. A load, also a refused one, leaves a state just reset, with some
memory. -/
inductive Moved (s : State) : State → Prop where
  | same : Moved s s
  | stepped : Moved s s.step
  | framed (n : Nat) : Moved s (s.frame n)
  | ticked : Moved s s.tick
  | keyed (keypad : Keypad) : Moved s (s.setKeys keypad)
  | restarted (memory : Memory) : Moved s { s.reset with memory }

theorem setKey_moved (s : State) (key : Datum) (down : Bool) : Moved s (setKey s key down).state := by
  unfold setKey
  cases Keypad.keyOfDatum key with
  | ok k => exact .keyed _
  | error e => exact .same

/-- A load, also a refused one, leaves a state just reset, with some memory. -/
theorem load_restarts (s : State) (p : Payload) : ∃ memory, (load s p).state = { s.reset with memory } := by
  unfold load
  cases h : s.reset.load p with
  | error e => exact ⟨_, rfl⟩
  | ok t =>
    obtain ⟨image, -, -, rfl⟩ := load_eq h
    cases p.length? <;> exact ⟨_, rfl⟩

theorem load_moved (s : State) (p : Payload) : Moved s (load s p).state := by
  obtain ⟨memory, h⟩ := load_restarts s p
  rw [h]
  exact .restarted memory

theorem act_moved (frameLength : Except Error Nat) (s : State) (op : Operation) :
    Moved s (act frameLength s op).state := by
  cases op with
  | load p => exact load_moved s p
  | step =>
    simp only [act]
    cases s.refusal? with
    | some e => exact .same
    | none => rw [settle_state]; exact .stepped
  | tick => exact .ticked
  | frame =>
    simp only [act]
    cases s.refusal? with
    | some e => exact .same
    | none =>
      cases frameLength with
      | error e => exact .same
      | ok n => rw [settle_state]; exact .framed n
  | press key => exact setKey_moved s key true
  | release key => exact setKey_moved s key false
  | setKeys d =>
    simp only [act]
    cases Keypad.ofDatum d with
    | ok keypad => exact .keyed keypad
    | error e => exact .same
  | reset => exact .restarted _
  | dump => exact .same

/-- Every operation keeps the invariant, also one that is refused. -/
theorem act_sound {s : State} (hs : s.Sound) (frameLength : Except Error Nat) (op : Operation) :
    (act frameLength s op).state.Sound := by
  have h := act_moved frameLength s op
  generalize (act frameLength s op).state = t at h ⊢
  cases h with
  | same => exact hs
  | stepped => exact step_sound hs
  | framed n => exact frame_sound hs n
  | ticked => exact tick_sound hs
  | keyed keypad => exact setKeys_sound hs keypad
  | restarted memory => exact Running.sound ⟨rfl, rfl⟩ tidy_empty

/-! ## Histories -/

/-- The machine after a list of operations, the first of the list first. -/
def performAll (m : Machine) (ops : List Operation) : Machine := ops.foldl (fun m op => (m.perform op).1) m

theorem performAll_sound {m : Machine} (hm : m.state.Sound) (ops : List Operation) :
    (m.performAll ops).state.Sound := by
  induction ops generalizing m with
  | nil => exact hm
  | cons op ops ih => exact ih (m := (m.perform op).1) (act_sound hm m.frameLength op)

/-- A new machine is one just switched on, with the frames it was made with, that has logged its settings. -/
theorem create_eq {c : Settings} {terminal : Bool} {clock : Log.Clock} {m : Machine} {lines : List String}
    (h : create c terminal clock = .ok (m, lines)) :
    ∃ k, m = ⟨powerOn c.dialect k, c.frameLength.times,
      (Log.Console.printAll ⟨.make logName c.logLevel true terminal true, clock⟩ (Log.configuration c.shown)).1⟩ := by
  unfold create at h
  cases hk : c.seed.randomKey with
  | error e => rw [hk] at h; cases h
  | ok k =>
    rw [hk] at h
    simp only [bind, Except.bind] at h
    split at h
    · cases h
    · cases h
      exact ⟨k, rfl⟩

theorem create_state {c : Settings} {terminal : Bool} {clock : Log.Clock} {m : Machine} {lines : List String}
    (h : create c terminal clock = .ok (m, lines)) : ∃ k, m.state = powerOn c.dialect k := by
  obtain ⟨k, rfl⟩ := create_eq h
  exact ⟨k, rfl⟩

theorem printAll_hidden (c : Log.Console) :
    ∀ es : List Log.Entry, (∀ e ∈ es, c.logger.shows e.level = false) → c.printAll es = (c, [], none)
  | [], _ => rfl
  | e :: es, h => by
    have he : c.print e = (c, .ok []) := by simp [Log.Console.print, h e (List.mem_cons_self ..)]
    simp only [Log.Console.printAll, he]
    rw [printAll_hidden c es fun e' h' => h e' (List.mem_cons_of_mem _ h')]
    rfl

theorem level_of_configuration {settings : List (String × Datum)} {e : Log.Entry}
    (h : e ∈ Log.configuration settings) : e.level = "INFO" := by
  rcases List.mem_cons.1 h with rfl | h
  · rfl
  · obtain ⟨p, -, rfl⟩ := List.mem_map.1 h
    rfl

/-- A machine that does not log its settings is made without a line, unless its seed is refused. -/
theorem create_silent (c : Settings) (terminal : Bool) (clock : Log.Clock) {k : RandomKey}
    (hk : c.seed.randomKey = .ok k) (hl : Log.rank "INFO" < Log.rank c.logLevel) :
    create c terminal clock = .ok (⟨powerOn c.dialect k, c.frameLength.times,
      ⟨.make logName c.logLevel true terminal true, clock⟩⟩, []) := by
  have hp := printAll_hidden ⟨.make logName c.logLevel true terminal true, clock⟩ (Log.configuration c.shown)
    fun e he => by
      rw [level_of_configuration he]
      simpa [Log.Logger.shows, Log.Logger.make] using hl
  unfold create
  rw [hk]
  simp only [bind, Except.bind, hp]

/-- Whatever a driver does with a machine from its making on, in whatever order, and whether the
machine takes it or refuses it, the machine stays sound. -/
theorem history_sound {c : Settings} {terminal : Bool} {clock : Log.Clock} {m : Machine} {lines : List String}
    (h : create c terminal clock = .ok (m, lines)) (ops : List Operation) : (m.performAll ops).state.Sound := by
  obtain ⟨k, hk⟩ := create_state h
  refine performAll_sound ?_ ops
  rw [hk]
  exact powerOn_sound _ k

/-- A load refused after it was written, a key wait, a frame that only polls, and a fault. -/
theorem history_sound_of_mishaps :
    ∃ m lines, create Settings.default false (.ofReadings []) = .ok (m, lines) ∧
      (m.performAll [.load (.value (.int 2)), .load (.bytes [0xF5, 0x0A]), .step, .frame, .press (.int 3), .step,
        .load (.bytes [0x00, 0xEE]), .frame, .step]).state.Sound := by
  have h := create_silent Settings.default false (.ofReadings []) (k := ⟨0, 0⟩) rfl (by decide +kernel)
  exact ⟨_, _, h, history_sound h _⟩

end Machine

end Chip8
