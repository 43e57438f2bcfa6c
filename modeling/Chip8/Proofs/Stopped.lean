/-
Machines that stop. A step of a running machine is refused if and only if the instruction it comes to is
a call with the stack full or a return with the stack empty; it then changes nothing but the fault latch,
and the error names the instruction. No operation but a reset or a load moves a stopped machine on:
whatever else a driver does, the latch, the program counter and the memory stay, so that every further
step and frame is refused with the same error and changes nothing.

What the driver hears of an operation is the answer of the operation only if its log entries can be
printed. They can, if the clock of the log tells the time of every line.
-/
import Chip8.Proofs.Sound

namespace Chip8

/-! ## Logs that can be printed -/

namespace Log

/-- The time since the start can be told for every reading that is still to come. -/
def Clock.Tells (c : Clock) : Prop := ∀ now ∈ c.latest :: c.later, ∃ x, now.since c.start = .ok x

/-- A clock of fractions of seconds tells the time. -/
theorem Clock.tells_ofReadings {ts : List Reading} (h : ∀ t ∈ ts, ∃ x, t = .fraction x) (hne : ts ≠ []) :
    (ofReadings ts).Tells := by
  obtain ⟨t, ts, rfl⟩ := List.exists_cons_of_ne_nil hne
  intro now hnow
  have hnow : now ∈ t :: ts := by simpa [ofReadings] using hnow
  obtain ⟨x, rfl⟩ := h t List.mem_cons_self
  obtain ⟨y, rfl⟩ := h now hnow
  exact ⟨y - x, rfl⟩

theorem Clock.Tells.read {c : Clock} (h : c.Tells) :
    (∃ x, c.read.1.since c.start = .ok x) ∧ c.read.2.Tells := by
  obtain ⟨start, latest, later⟩ := c
  cases later with
  | nil => exact ⟨h latest List.mem_cons_self, h⟩
  | cons t ts => exact ⟨h t (by simp), fun now hnow => h now (List.mem_cons_of_mem _ hnow)⟩

namespace Console

theorem print_of_tells {c : Console} (h : c.clock.Tells) (e : Entry) :
    (∃ line, (c.print e).2 = .ok line) ∧ (c.print e).1.clock.Tells := by
  unfold print
  split
  · split
    · obtain ⟨⟨x, hx⟩, hrest⟩ := h.read
      exact ⟨⟨_, congrArg (Except.map _) hx⟩, hrest⟩
    · exact ⟨⟨_, rfl⟩, h⟩
  · exact ⟨⟨_, rfl⟩, h⟩

theorem printAll_of_tells {c : Console} (h : c.clock.Tells) (es : List Entry) :
    (c.printAll es).2.2 = none ∧ (c.printAll es).1.clock.Tells := by
  induction es generalizing c with
  | nil => exact ⟨rfl, h⟩
  | cons e es ih =>
    obtain ⟨⟨line, hline⟩, hc⟩ := print_of_tells h e
    simp only [printAll, hline]
    exact ih hc

end Console

end Log

/-! ## Instructions that cannot be completed -/

namespace State

/-- The machine is at an instruction that this fault keeps from being completed. -/
def Fails (s : State) : Fault → Prop
  | .stackOverflow => s.waiting = false ∧ s.peek.family.val = 0x2 ∧ s.stack.pointer = 16
  | .stackUnderflow => s.waiting = false ∧ s.peek.word = 0x00EE ∧ s.stack.pointer = 0

theorem stop_advance (s : State) (f : Fault) : s.advance.stop f = { s with fault := f.code } := by
  rw [stop, s.advance_pc_sub]
  rfl

/-- A step that fails does nothing but latch the fault. -/
theorem step_of_fails {s : State} {f : Fault} (hf : s.fault = 0) (h : s.Fails f) :
    s.step = { s with fault := f.code } := by
  cases f with
  | stackOverflow =>
    obtain ⟨hw, hop, hp⟩ := h
    have hfull : s.advance.stack.push? s.advance.pc = none := CallStack.push?_eq_none_iff.2 (Int.le_of_eq hp.symm)
    rw [step_of_encodes ⟨hf, hw⟩ (i := .call s.peek.address) ⟨hop, rfl⟩]
    simp only [execute, call, hfull]
    exact s.stop_advance _
  | stackUnderflow =>
    obtain ⟨hw, hop, hp⟩ := h
    have hnone : s.advance.stack.pop? = none := CallStack.pop?_eq_none_iff.2 (Int.le_of_eq hp)
    rw [step_of_encodes ⟨hf, hw⟩ (i := .leave) hop]
    simp only [execute, leave, hnone]
    exact s.stop_advance _

theorem step_fault_eq_zero {s : State} (hs : s.stack.Tidy) (hf : s.fault = 0) (h : ∀ f, ¬ s.Fails f) :
    s.step.fault = 0 := by
  have hstep := step_stepped s
  generalize s.step = t at hstep ⊢
  cases hstep with
  | stopped | idle | resumed => exact hf
  | executed hr hi ho =>
    cases ho with
    | plain _ _ _ hc => exact hc.fault.trans hf
    | called | returned | pressed | wait => exact hf
    | overflow hfull =>
      -- a full stack has no less than sixteen addresses, a tidy one no more
      have hp : s.stack.pointer = 16 := Int.le_antisymm hs.le (CallStack.push?_eq_none_iff.1 hfull)
      exact absurd ⟨hr.waiting, (Instruction.encodes_of_decode hi nofun).1, hp⟩ (h .stackOverflow)
    | underflow hnone =>
      have hp : s.stack.pointer = 0 := Int.le_antisymm (CallStack.pop?_eq_none_iff.1 hnone) hs.nonneg
      exact absurd ⟨hr.waiting, Instruction.encodes_of_decode hi nofun, hp⟩ (h .stackUnderflow)

/-! ## What a stopped machine says -/

theorem refusal?_of_running {s : State} (hf : s.fault = 0) : s.refusal? = none := by
  simp [refusal?, hf]

theorem refusal?_of_fault {s : State} {f : Fault} (hf : s.fault = f.code) :
    s.refusal? = some (.machineFault f s.pc s.peek.word) := by
  simp [refusal?, hf, f.code_ne_zero, f.ofCode?_code]

/-- Two states are stopped by the same fault at the same instruction, if one of them is stopped at all. -/
structure SameStop (s t : State) : Prop where
  fault : t.fault = s.fault
  pc : t.pc = s.pc
  memory : t.memory = s.memory

theorem SameStop.refl (s : State) : SameStop s s := ⟨rfl, rfl, rfl⟩

theorem SameStop.trans {s t u : State} (h : SameStop s t) (h' : SameStop t u) : SameStop s u :=
  ⟨h'.fault.trans h.fault, h'.pc.trans h.pc, h'.memory.trans h.memory⟩

theorem SameStop.refusal? {s t : State} {f : Fault} (h : SameStop s t) (hf : s.fault = f.code) :
    t.refusal? = some (.machineFault f s.pc s.peek.word) := by
  rw [refusal?_of_fault (h.fault.trans hf), h.pc, peek_congr h.pc h.memory]

end State

/-! ## Operations -/

namespace Machine

open State

/-- The operations after which a stopped machine goes on. -/
def Operation.Restarts : Operation → Prop
  | reset | load _ => True
  | _ => False

/-- The operations that a stopped machine refuses. -/
def Operation.Moves : Operation → Prop
  | step | frame => True
  | _ => False

theorem act_step_of_fails {s : State} {f : Fault} (hf : s.fault = 0) (h : s.Fails f)
    (frameLength : Except Error Nat) :
    act frameLength s .step = .stopped { s with fault := f.code } (.machineFault f s.pc s.peek.word) := by
  have hlatched : State.refusal? { s with fault := f.code } = some (.machineFault f s.pc s.peek.word) :=
    refusal?_of_fault rfl
  simp only [act, refusal?_of_running hf, step_of_fails hf h, Effect.settle, hlatched]

theorem act_step_of_completes {s : State} (hs : s.stack.Tidy) (hf : s.fault = 0) (h : ∀ f, ¬ s.Fails f)
    (frameLength : Except Error Nat) : act frameLength s .step = .quiet s.step (.running (!s.step.waiting)) := by
  have hstep : s.step.refusal? = none := refusal?_of_running (step_fault_eq_zero hs hf h)
  simp only [act, refusal?_of_running hf, Effect.settle, hstep]

theorem act_moves {s : State} {e : Error} (h : s.refusal? = some e) (frameLength : Except Error Nat) {op : Operation}
    (hop : op.Moves) : act frameLength s op = .stopped s e := by
  cases op with
  | step | frame => simp only [act, h]
  | _ => cases hop

theorem setKey_sameStop (s : State) (key : Datum) (down : Bool) : SameStop s (setKey s key down).state := by
  unfold setKey
  cases Keypad.keyOfDatum key with
  | ok k => exact ⟨rfl, rfl, rfl⟩
  | error e => exact .refl s

/-- A stopped machine stays stopped where it is, until it is started again. -/
theorem act_sameStop {s : State} {f : Fault} (hf : s.fault = f.code) (frameLength : Except Error Nat) {op : Operation}
    (hop : ¬ op.Restarts) : SameStop s (act frameLength s op).state := by
  cases op with
  | step | frame =>
    simp only [act, refusal?_of_fault hf]
    exact .refl s
  | tick => exact ⟨rfl, rfl, rfl⟩
  | press key => exact setKey_sameStop s key true
  | release key => exact setKey_sameStop s key false
  | setKeys d =>
    simp only [act]
    cases Keypad.ofDatum d with
    | ok keypad => exact ⟨rfl, rfl, rfl⟩
    | error e => exact .refl s
  | dump => exact .refl s
  | reset | load => exact absurd trivial hop

theorem performAll_sameStop {m : Machine} {f : Fault} (hf : m.state.fault = f.code) {ops : List Operation}
    (hops : ∀ op ∈ ops, ¬ op.Restarts) : SameStop m.state (m.performAll ops).state := by
  induction ops generalizing m with
  | nil => exact .refl _
  | cons op ops ih =>
    obtain ⟨hop, hops⟩ := List.forall_mem_cons.1 hops
    -- the latch stays as well, so that the other operations find a stopped machine too
    have hfirst : SameStop m.state (m.perform op).1.state := act_sameStop hf m.frameLength hop
    exact hfirst.trans (ih (hfirst.fault.trans hf) hops)

/-! ## Machines with a log -/

theorem perform_of_tells {m : Machine} (h : m.console.clock.Tells) (op : Operation) :
    (m.perform op).2.1 = (act m.frameLength m.state op).reply ∧ (m.perform op).1.console.clock.Tells := by
  obtain ⟨hp, hc⟩ := Log.Console.printAll_of_tells h (act m.frameLength m.state op).entries
  refine ⟨?_, hc⟩
  simp only [perform, hp]

theorem performAll_tells {m : Machine} (h : m.console.clock.Tells) (ops : List Operation) :
    (m.performAll ops).console.clock.Tells := by
  induction ops generalizing m with
  | nil => exact h
  | cons op ops ih => exact ih (perform_of_tells h op).2

/-- The machines that come from one just switched on, whatever its frames and its log, by operations. -/
inductive Reachable : Machine → Prop where
  | new (d : Dialect) (k : RandomKey) (frameLength : Except Error Nat) (console : Log.Console) :
    Reachable ⟨powerOn d k, frameLength, console⟩
  | perform {m : Machine} (op : Operation) : Reachable m → Reachable (m.perform op).1

theorem Reachable.sound {m : Machine} (h : m.Reachable) : m.state.Sound := by
  induction h with
  | new d k => exact powerOn_sound d k
  | perform op _ ih => exact act_sound ih _ op

/-- The machines that a driver makes are among them, and their logs tell the time if the clock does. -/
theorem create_reachable {c : Settings} {terminal : Bool} {clock : Log.Clock} {m : Machine} {lines : List String}
    (h : create c terminal clock = .ok (m, lines)) : m.Reachable ∧ (clock.Tells → m.console.clock.Tells) := by
  obtain ⟨k, rfl⟩ := create_eq h
  exact ⟨.new .., fun hc => (Log.Console.printAll_of_tells hc _).2⟩

/-- Let a machine, however it was used before, not be stopped, and let its log tell the time. Its step is
answered with an error if and only if it is not waiting and at a call with sixteen addresses on the stack
or at a return with none; the error then tells which of the two, the program counter and the opcode, and
all of the state but the fault latch is as before. After that, whatever is done but a reset and a load,
every step and every frame is answered with that same error and changes nothing. -/
theorem fault_stands_until_restart {m : Machine} (hm : m.Reachable) (hc : m.console.clock.Tells)
    (hf : m.state.fault = 0) :
    (∀ e, (m.perform .step).2.1 = .error e ↔
      ∃ f, m.state.Fails f ∧ e = .machineFault f m.state.pc m.state.peek.word) ∧
    ∀ f, m.state.Fails f →
      (m.perform .step).1.state = { m.state with fault := f.code } ∧
      ∀ ops : List Operation, (∀ op ∈ ops, ¬ op.Restarts) → ∀ op : Operation, op.Moves →
        let a := (m.perform .step).1.performAll ops
        (a.perform op).2.1 = .error (.machineFault f m.state.pc m.state.peek.word) ∧
          (a.perform op).1.state = a.state := by
  have hstack : m.state.stack.Tidy := hm.sound.stack
  obtain ⟨hreply, hclock⟩ := perform_of_tells hc .step
  refine ⟨fun e => ?_, fun f hfail => ?_⟩
  · rw [hreply]
    constructor
    · intro he
      by_cases hall : ∀ f, ¬ m.state.Fails f
      · rw [act_step_of_completes hstack hf hall] at he
        cases he
      · obtain ⟨f, hfail⟩ := not_forall_not.1 hall
        rw [act_step_of_fails hf hfail] at he
        exact ⟨f, hfail, (Except.error.inj he).symm⟩
    · rintro ⟨f, hfail, rfl⟩
      rw [act_step_of_fails hf hfail]
      rfl
  · have hstate : (m.perform .step).1.state = { m.state with fault := f.code } :=
      congrArg Effect.state (act_step_of_fails hf hfail m.frameLength)
    refine ⟨hstate, fun ops hops op hop => ?_⟩
    have hlatch : (m.perform .step).1.state.fault = f.code := by rw [hstate]
    -- the error is made from the state as it is then, which still is that of the step
    have hrefusal : ((m.perform .step).1.performAll ops).state.refusal? =
        some (.machineFault f m.state.pc m.state.peek.word) := by
      rw [(performAll_sameStop hlatch hops).refusal? hlatch, hstate]
      rfl
    have hact := act_moves hrefusal ((m.perform .step).1.performAll ops).frameLength hop
    have hanswer := (perform_of_tells (performAll_tells hclock ops) op).1
    exact ⟨hanswer.trans (congrArg Effect.reply hact), congrArg Effect.state hact⟩

/-- A new machine without frames, whose log is opened half a second after a clock began. -/
def frameless : Machine where
  state := powerOn ⟨false, false, false, false⟩ ⟨0, 0⟩
  frameLength := .error .missing
  console := ⟨.make logName "INFO" true false true, .ofReadings [.fraction 0.5, .fraction 0.75]⟩

/-- That machine at a return, the first instruction of its program. -/
def atReturn : Machine := (frameless.perform (.load (.bytes [0x00, 0xEE]))).1

theorem peek_atReturn : atReturn.state.peek = ⟨0x00EE⟩ := peek_withOpcode frameless.state.reset 0x00 0xEE

/-- What a driver does with the stopped machine. -/
def afterReturn : List Operation :=
  [.tick, .press (.int 3), .step, .frame, .setKeys .null, .dump, .release (.int 16)]

/-- The return fails, and so does every frame, before its missing length is looked at. -/
theorem fault_stands_until_restart_at_return :
    (atReturn.perform .step).2.1 = .error (.machineFault .stackUnderflow 0x200 0x00EE) ∧
    (((atReturn.perform .step).1.performAll afterReturn).perform .frame).2.1 =
      .error (.machineFault .stackUnderflow 0x200 0x00EE) := by
  have hm : atReturn.Reachable := .perform _ (.new ..)
  have hclock : frameless.console.clock.Tells := Log.Clock.tells_ofReadings (by simp) (by simp)
  have hc : atReturn.console.clock.Tells := (perform_of_tells hclock _).2
  have hfail : atReturn.state.Fails .stackUnderflow := ⟨rfl, by rw [peek_atReturn], rfl⟩
  have hpc : atReturn.state.pc = 0x200 := rfl
  have hops : ∀ op ∈ afterReturn, ¬ op.Restarts := by simp [afterReturn, Operation.Restarts]
  obtain ⟨hreply, hlatched⟩ := fault_stands_until_restart hm hc rfl
  obtain ⟨hframe, -⟩ := (hlatched _ hfail).2 afterReturn hops .frame trivial
  rw [hpc, peek_atReturn] at hframe
  refine ⟨(hreply _).2 ⟨_, hfail, ?_⟩, hframe⟩
  rw [hpc, peek_atReturn]

end Machine

end Chip8
