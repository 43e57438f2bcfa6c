/-
Frames and single steps. A driver that asks for a frame gets what it would get by asking for its steps one
by one, up to the first that is refused, and then for a tick: the same machine and the same error. A frame does
not look at the fault latch before its end, and complains of a stopped machine only after the tick; but such a
machine stays as it is, and the tick does not touch what the error is made of. The complaint then has other
timers in its table, though as many lines, so that the clock of the log is read as often. The steps of a frame are
counted in 32 bits, so that a machine may be made with frames that are too long to be asked for.
-/
import Chip8.Proofs.Stopped
import Chip8.Proofs.Table

namespace Chip8

/-! ## Logs -/

namespace Log.Console

variable (c : Console)

/-- Whether an entry can be printed, and what it does to the clock, depends on its level alone. -/
theorem print_of_level {e f : Entry} (h : e.level = f.level) :
    (∃ c' l l', c.print e = (c', .ok l) ∧ c.print f = (c', .ok l')) ∨
      ∃ c' x, c.print e = (c', .error x) ∧ c.print f = (c', .error x) := by
  unfold print
  rw [h]
  split
  · split
    · rcases c.clock.read with ⟨now, clock⟩
      dsimp only
      cases now.since c.clock.start with
      | ok elapsed => exact .inl ⟨_, _, _, rfl, rfl⟩
      | error x => exact .inr ⟨_, x, rfl, rfl⟩
    · exact .inl ⟨c, _, _, rfl, rfl⟩
  · exact .inl ⟨c, _, _, rfl, rfl⟩

theorem printAll_of_levels {es fs : List Entry} (h : es.map Entry.level = fs.map Entry.level) :
    (c.printAll es).1 = (c.printAll fs).1 ∧ (c.printAll es).2.2 = (c.printAll fs).2.2 := by
  induction es generalizing c fs with
  | nil =>
    rw [List.map_nil] at h
    rw [List.map_eq_nil_iff.1 h.symm]
    exact ⟨rfl, rfl⟩
  | cons e es ih =>
    obtain ⟨f, fs, rfl⟩ : ∃ f fs', fs = f :: fs' := List.exists_cons_of_ne_nil (by rintro rfl; cases h)
    rw [List.map_cons, List.map_cons, List.cons.injEq] at h
    rcases c.print_of_level h.1 with ⟨c', l, l', he, hf⟩ | ⟨c', x, he, hf⟩
    · simp only [printAll, he, hf]
      exact ih c' h.2
    · simp only [printAll, he, hf, and_self]

end Log.Console

namespace State

/-! ## What a tick does not touch -/

theorem refusal?_tick (s : State) : s.tick.refusal? = s.refusal? := rfl

theorem levels_complaint (s : State) (e : Error) :
    (s.complaint e).map Log.Entry.level =
      if e.message?.isSome then List.replicate (s.snapshot.lines.length + 1) "ERROR" else [] := by
  unfold complaint
  cases e.message? with
  | none => rfl
  | some text =>
    simp only [Log.fault, s.snapshot.split_format, List.map_cons, List.map_map, Option.isSome_some, if_true]
    exact congrArg _ (List.map_const' ..)

theorem levels_complaint_tick (s : State) (e : Error) :
    (s.tick.complaint e).map Log.Entry.level = (s.complaint e).map Log.Entry.level := by
  rw [levels_complaint, levels_complaint, Snapshot.length_lines, Snapshot.length_lines]
  rfl

theorem run_of_stopped {s : State} (h : s.fault ≠ 0) (n : Nat) : run n s = s := by
  induction n with
  | zero => rfl
  | succ n ih => rw [run, step_of_stopped h, ih]

theorem exists_refusal {s : State} (h : s.fault ≠ 0) : ∃ e, s.refusal? = some e := by
  unfold refusal?
  rw [if_neg h]
  cases Fault.ofCode? s.fault <;> exact ⟨_, rfl⟩

/-- A machine refuses to move for nothing but a fault. -/
theorem refusal?_ne_integerTooWide (s : State) : s.refusal? ≠ some .integerTooWide := by
  unfold refusal?
  split
  · nofun
  · cases Fault.ofCode? s.fault <;> nofun

end State

namespace Machine

open State

/-! ## Moving and answering for it -/

/-- The error that an answer is. -/
def failure? : Except Error Reply → Option Error
  | .ok _ => none
  | .error e => some e

theorem failure?_eq_some_iff {answer : Except Error Reply} {e : Error} :
    failure? answer = some e ↔ answer = .error e := by
  cases answer <;> simp [failure?]

/-- The machine brought to a state that it answers for, and the error if it is stopped there. -/
def settled (m : Machine) (s : State) : Machine × Option Error :=
  match s.refusal? with
  | some e =>
    let (console, _, failure) := m.console.printAll (s.complaint e)
    ({ m with state := s, console }, some (failure.getD e))
  | none => ({ m with state := s }, none)

theorem settled_of_running (m : Machine) {s : State} (h : s.fault = 0) :
    m.settled s = ({ m with state := s }, none) := by
  rw [settled, refusal?_of_running h]

theorem settled_state (m : Machine) (s : State) : (m.settled s).1.state = s := by
  unfold settled
  cases s.refusal? <;> rfl

/-- A machine whose log can be printed answers with the error that it is stopped by. -/
theorem settled_of_tells {m : Machine} (hc : m.console.clock.Tells) (s : State) : (m.settled s).2 = s.refusal? := by
  unfold settled
  cases s.refusal? with
  | none => rfl
  | some e => simp only [Log.Console.printAll_of_tells hc]; rfl

theorem perform_of_settle {m : Machine} {op : Operation} {s : State} {r : Reply}
    (h : act m.frameLength m.state op = .settle s r) :
    (m.perform op).1 = (m.settled s).1 ∧ failure? (m.perform op).2.1 = (m.settled s).2 := by
  unfold perform settled
  rw [h, Effect.settle]
  cases s.refusal? with
  | none => exact ⟨rfl, rfl⟩
  | some e =>
    simp only [Effect.stopped]
    refine ⟨trivial, ?_⟩
    cases (m.console.printAll (s.complaint e)).2.2 <;> rfl

theorem act_step {s : State} (hf : s.fault = 0) (frameLength : Except Error Nat) :
    act frameLength s .step = .settle s.step (.running (!s.step.waiting)) := by
  simp only [act, refusal?_of_running hf]

theorem act_frame {s : State} (hf : s.fault = 0) (n : Nat) : act (.ok n) s .frame = .settle (s.frame n) .done := by
  simp only [act, refusal?_of_running hf]

theorem perform_tick (m : Machine) : (m.perform .tick).1 = { m with state := m.state.tick } := rfl

/-- The error of a stopped machine, and what it costs to print it, are the same after a tick. -/
theorem settled_tick (m : Machine) (s : State) :
    m.settled s.tick = ({ (m.settled s).1 with state := s.tick }, (m.settled s).2) := by
  unfold settled
  rw [refusal?_tick]
  cases s.refusal? with
  | none => rfl
  | some e =>
    obtain ⟨hconsole, hfailure⟩ := m.console.printAll_of_levels (s.levels_complaint_tick e)
    simp only [hconsole, hfailure]

/-- Steps up to the first refusal lead where as many steps of the state alone lead. -/
theorem stepUpTo_settled {m : Machine} (hf : m.state.fault = 0) (n : Nat) :
    (m.stepUpTo n).1 = (m.settled (run n m.state)).1 ∧
      (m.stepUpTo n).2.2.1 = (m.settled (run n m.state)).2 := by
  induction n generalizing m with
  | zero =>
    rw [run, settled_of_running m hf]
    exact ⟨rfl, rfl⟩
  | succ n ih =>
    obtain ⟨hmachine, hanswer⟩ := perform_of_settle (act_step hf m.frameLength)
    rw [stepUpTo, run]
    generalize m.perform .step = performed at hmachine hanswer ⊢
    obtain ⟨m', answer, lines⟩ := performed
    by_cases hstep : m.state.step.fault = 0
    · -- the step was taken, and its state is where the other steps begin
      rw [settled_of_running m hstep] at hmachine hanswer
      obtain rfl : m' = { m with state := m.state.step } := hmachine
      cases answer with
      | error e => cases hanswer
      | ok reply => exact ih hstep
    · -- no further step is asked for, and none would change the state
      rw [run_of_stopped hstep]
      cases answer with
      | error e => exact ⟨hmachine, hanswer⟩
      | ok reply =>
        obtain ⟨e, he⟩ := exists_refusal hstep
        rw [settled, he] at hanswer
        cases hanswer

/-! ## Frames of a given length -/

theorem times_of_lt {n : Nat} (h : n < 0x80000000) : Datum.times (.int n) = .ok n := by
  have hready : narrow n = .ok n := narrow_of_fits (by omega)
  simp only [Datum.times, hready]
  rfl

theorem times_of_le {n : Nat} (h : 0x80000000 ≤ n) : Datum.times (.int n) = .error .integerTooWide := by
  have hwide : narrow n = .error .integerTooWide := narrow_of_not_fits (by omega)
  simp only [Datum.times, hwide]
  rfl

theorem create_frameLength {c : Settings} {terminal : Bool} {clock : Log.Clock} {m : Machine} {lines : List String}
    (h : create c terminal clock = .ok (m, lines)) : m.frameLength = c.frameLength.times := by
  obtain ⟨k, rfl⟩ := create_eq h
  rfl

/-- Let a machine be made with frames of `n` steps, of which 32 bits hold the number, and let it not be stopped,
whatever else has become of its state and its log. A frame brings it where up to `n` single steps bring it,
stopping at the first that is refused, and one tick after them; and the frame is answered with an error if and
only if one of these steps is, with the same error. -/
theorem frame_agrees_with_steps {c : Settings} {n : Nat} (hn : n < 0x80000000) {terminal : Bool} {clock : Log.Clock}
    {made : Machine} {lines : List String}
    (hmade : create { c with frameLength := .int n } terminal clock = .ok (made, lines))
    {s : State} (hf : s.fault = 0) (console : Log.Console) :
    let m : Machine := { made with state := s, console }
    (m.perform .frame).1 = ((m.stepUpTo n).1.perform .tick).1 ∧
      ∀ e, (m.perform .frame).2.1 = .error e ↔ (m.stepUpTo n).2.2.1 = some e := by
  intro m
  have hlength : m.frameLength = .ok n := (create_frameLength hmade).trans (times_of_lt hn)
  obtain ⟨hmachine, hanswer⟩ := perform_of_settle (m := m) (hlength ▸ act_frame hf n)
  obtain ⟨hmachine', herror⟩ := stepUpTo_settled (m := m) hf n
  rw [frame, settled_tick] at hmachine hanswer
  refine ⟨?_, fun e => ?_⟩
  · rw [hmachine, hmachine', perform_tick, settled_state]
  · rw [herror, ← hanswer, failure?_eq_some_iff]

/-- The usual settings, but with frames of `n` steps. -/
def framed (n : Nat) : Settings := { Settings.default with frameLength := .int n }

theorem exists_create_framed (n : Nat) :
    ∃ made, create (framed n) false (.ofReadings [.fraction 0]) = .ok (made, []) ∧
      made.state = powerOn ⟨false, false, false, false⟩ ⟨0, 0⟩ ∧ made.console.clock.Tells := by
  have hlevel : Log.rank "INFO" < Log.rank "WARNING" := by decide +kernel
  refine ⟨_, create_silent (framed n) false _ (k := ⟨0, 0⟩) rfl hlevel, rfl, ?_⟩
  exact Log.Clock.tells_ofReadings (by simp) (by simp)

/-- A program that sets the delay timer, and then calls itself for ever. -/
def recursion : Payload := .bytes [0x60, 0x07, 0xF0, 0x15, 0x22, 0x04]

/-- A new machine with this program. -/
def recursing : State := (load (powerOn ⟨false, false, false, false⟩ ⟨0, 0⟩) recursion).state

/-- The seventeenth call stops the machine in the middle of a frame of 40 steps, with the delay timer running. -/
theorem frame_agrees_with_steps_at_deep_call :
    ∃ made lines, create (framed 40) false (.ofReadings [.fraction 0]) = .ok (made, lines) ∧
      let m := (made.perform (.load recursion)).1
      (m.perform .frame).1 = ((m.stepUpTo 40).1.perform .tick).1 ∧
        (m.stepUpTo 40).2.2.1 = some (.machineFault .stackOverflow 0x204 0x2204) := by
  obtain ⟨made, hmade, hnew, hc⟩ := exists_create_framed 40
  have hstate : (made.perform (.load recursion)).1.state = recursing := by
    show (load made.state recursion).state = recursing
    rw [hnew, recursing]
  have hloaded : { made with state := recursing, console := (made.perform (.load recursion)).1.console } =
      (made.perform (.load recursion)).1 := by
    rw [← hstate]
    rfl
  obtain ⟨hlatch, hpc, hop⟩ : (recursing.frame 40).fault = Fault.stackOverflow.code ∧
      (recursing.frame 40).pc = 0x204 ∧ (recursing.frame 40).peek.word = 0x2204 := by decide +kernel
  have hrefusal := refusal?_of_fault hlatch
  rw [hpc, hop] at hrefusal
  have hlength : (made.perform (.load recursion)).1.frameLength = .ok 40 :=
    (create_frameLength hmade).trans (times_of_lt (n := 40) (by decide))
  have hreply : ((made.perform (.load recursion)).1.perform .frame).2.1 =
      .error (.machineFault .stackOverflow 0x204 0x2204) := by
    rw [(perform_of_tells (perform_of_tells hc _).2 .frame).1, hlength, hstate, act_frame rfl, Effect.settle, hrefusal]
    rfl
  obtain ⟨hmachine, herror⟩ := frame_agrees_with_steps (c := framed 40) (n := 40) (by decide) hmade
    (s := recursing) rfl (made.perform (.load recursion)).1.console
  rw [hloaded] at hmachine herror
  exact ⟨made, [], hmade, hmachine, (herror _).1 hreply⟩

/-- A frame of 2^31 steps is refused, while its steps end with an error only if a fault stops the machine. -/
theorem long_frame_refused :
    ¬ ∀ {c : Settings} {n : Nat} {terminal : Bool} {clock : Log.Clock} {made : Machine} {lines : List String},
      create { c with frameLength := .int n } terminal clock = .ok (made, lines) →
      ∀ {s : State}, s.fault = 0 → ∀ (console : Log.Console) (e : Error),
        let m : Machine := { made with state := s, console }
        (m.perform .frame).2.1 = .error e ↔ (m.stepUpTo n).2.2.1 = some e := by
  intro h
  obtain ⟨made, hmade, hnew, hc⟩ := exists_create_framed 0x80000000
  have hlength : made.frameLength = .error .integerTooWide :=
    (create_frameLength hmade).trans (times_of_le (Nat.le_refl _))
  have hf : made.state.fault = 0 := by
    rw [hnew]
    rfl
  have hreply : (made.perform .frame).2.1 = .error .integerTooWide := by
    rw [(perform_of_tells hc .frame).1, hlength]
    simp only [act, refusal?_of_running hf]
    rfl
  have hsteps := (h (c := framed 0x80000000) hmade hf made.console .integerTooWide).1 hreply
  rw [(stepUpTo_settled hf _).2, settled_of_tells hc] at hsteps
  exact refusal?_ne_integerTooWide _ hsteps

end Machine

end Chip8
