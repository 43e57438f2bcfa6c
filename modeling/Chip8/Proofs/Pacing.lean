/-
Where ticks stand in a run. A tick may come before a step or after it, unless the step executes an instruction
that looks at a timer or sets one. So a driver may pace the timers as it likes: as long as no such instruction
is executed, the state at the end of a run tells how many ticks there were, but not when.
-/
import Chip8.Proofs.Bystanders
import Chip8.Proofs.KeyWait

namespace Chip8

/-- The opcodes that look at a timer or set one: FX07, FX15 and FX18. -/
def Pattern.timing : List Pattern := [low 0xF 0x07, low 0xF 0x15, low 0xF 0x18]

def Adjustment.tick : Adjustment where
  key := id
  delay b := if b = 0 then 0 else b - 1
  sound b := if b = 0 then 0 else b - 1

theorem Adjustment.tick_clears {o : Opcode} (h : ¬ o.OneOf Pattern.timing) : tick.Clears o where
  key _ := rfl
  delay ho := absurd (ho.mono (by decide)) h
  sound ho := absurd (ho.mono (by decide)) h

namespace Signal

def withoutTicks (es : List Signal) : List Signal := es.filter fun e => !e.isTick

@[simp] theorem withoutTicks_step (es : List Signal) : withoutTicks (step :: es) = step :: withoutTicks es := rfl

@[simp] theorem withoutTicks_tick (es : List Signal) : withoutTicks (tick :: es) = withoutTicks es := rfl

@[simp] theorem withoutTicks_keys (keypad : Keypad) (es : List Signal) :
    withoutTicks (keys keypad :: es) = keys keypad :: withoutTicks es := rfl

end Signal

namespace State

open Signal

theorem tick_eq_adjust (s : State) : s.tick = s.adjust .tick := rfl

/-! ## One step -/

theorem step_tick {s : State} (h : s.Running → ¬ s.peek.OneOf Pattern.timing) : s.tick.step = s.step.tick := by
  rw [tick_eq_adjust, tick_eq_adjust]
  exact step_adjust fun hr => Adjustment.tick_clears (h hr)

/-! ## Runs that have nothing to do with the timers -/

/-- No instruction is executed in the run that looks at a timer or sets one. -/
def Untimed (s : State) (es : List Signal) : Prop := ∀ o ∈ s.executed es, ¬ o.OneOf Pattern.timing

theorem untimed_step {s : State} {es : List Signal} :
    s.Untimed (.step :: es) ↔ (s.Running → ¬ s.peek.OneOf Pattern.timing) ∧ s.step.Untimed es := by
  unfold Untimed
  rw [executed, List.forall_mem_append]
  refine and_congr_left fun _ => ?_
  by_cases hr : s.Running <;> simp [executes, hr]

/-- A tick in front of a run does not change whether the run has to do with the timers. -/
theorem untimed_of_tick {s : State} {es : List Signal} : s.tick.Untimed es ↔ s.Untimed es := by
  induction es generalizing s with
  | nil => exact Iff.rfl
  | cons e es ih =>
    cases e with
    | step =>
      have hfirst : (s.tick.Running → ¬ s.tick.peek.OneOf Pattern.timing) ↔
          (s.Running → ¬ s.peek.OneOf Pattern.timing) := imp_congr_left (s.running_adjust .tick)
      rw [untimed_step, untimed_step, hfirst]
      refine and_congr_right fun h => ?_
      rw [step_tick h]
      exact ih
    | tick => exact ih
    | keys keypad => exact ih (s := s.setKeys keypad)

theorem play_of_tick {s : State} {es : List Signal} (h : s.Untimed es) : s.tick.play es = (s.play es).tick := by
  induction es generalizing s with
  | nil => rfl
  | cons e es ih =>
    cases e with
    | step =>
      obtain ⟨hfirst, hrest⟩ := untimed_step.1 h
      rw [play_cons, receive, step_tick hfirst]
      exact ih hrest
    | tick => exact ih h
    | keys keypad => exact ih (s := s.setKeys keypad) h

theorem untimed_withoutTicks {s : State} {es : List Signal} : s.Untimed (withoutTicks es) ↔ s.Untimed es := by
  induction es generalizing s with
  | nil => exact Iff.rfl
  | cons e es ih =>
    cases e with
    | step =>
      rw [withoutTicks_step, untimed_step, untimed_step]
      exact and_congr_right fun _ => ih
    | tick =>
      rw [withoutTicks_tick, ih]
      exact untimed_of_tick.symm
    | keys keypad => exact ih (s := s.setKeys keypad)

/-- All ticks of a run may be left to its end. -/
theorem play_eq_ticks_last {s : State} {es : List Signal} (h : s.Untimed es) :
    s.play es = tick^[ticks es] (s.play (withoutTicks es)) := by
  induction es generalizing s with
  | nil => rfl
  | cons e es ih =>
    cases e with
    | step =>
      rw [ticks_step]
      exact ih (untimed_step.1 h).2
    | tick =>
      -- the tick is carried over what follows, from which the other ticks have been taken out
      have hrest : s.Untimed (withoutTicks es) := untimed_withoutTicks.2 (untimed_of_tick.1 h)
      calc s.play (.tick :: es) = tick^[ticks es] (s.tick.play (withoutTicks es)) := ih h
        _ = tick^[ticks es] ((s.play (withoutTicks es)).tick) := by rw [play_of_tick hrest]
        _ = tick^[ticks (.tick :: es)] (s.play (withoutTicks (.tick :: es))) := by
          rw [ticks_tick, Function.iterate_succ_apply, withoutTicks_tick]
    | keys keypad =>
      rw [ticks_keys]
      exact ih (s := s.setKeys keypad) h

/-- If a machine has stopped, or waits, or its opcode neither looks at a timer nor sets one, then a tick may come
before a step or after it. And if no such opcode is executed in a run, every other run that differs from it only
in the places of the ticks leads to the same state. -/
theorem ticks_move_freely (s : State) :
    (s.fault ≠ 0 ∨ s.waiting = true ∨ ¬ s.peek.OneOf Pattern.timing → s.tick.step = s.step.tick) ∧
    ∀ es fs : List Signal, (∀ o ∈ s.executed es, ¬ o.OneOf Pattern.timing) →
      withoutTicks fs = withoutTicks es → ticks fs = ticks es → s.play fs = s.play es := by
  refine ⟨fun h => step_tick fun hr => ?_, fun es fs h hsame hticks => ?_⟩
  · rcases h with hf | hw | ho
    · exact absurd hr.fault hf
    · exact absurd hr.waiting (by simp [hw])
    · exact ho
  · have hes : s.Untimed es := h
    have hfs : s.Untimed fs := by
      rw [← untimed_withoutTicks, hsame]
      exact untimed_withoutTicks.2 hes
    rw [play_eq_ticks_last hes, play_eq_ticks_last hfs, hsame, hticks]

/-- A machine with its delay timer at 2, whose program sets V1 and counts it up for ever. -/
def atAdder : State :=
  { powerOn ⟨false, false, false, false⟩ ⟨0, 0⟩ with
    delay := 2
    memory := Memory.initial.writeAll Memory.programStart [0x61, 0x05, 0x71, 0x01, 0x12, 0x02] }

def ticksAmongSteps : List Signal := [.step, .tick, .step, .keys (Keypad.ofDown [3]), .tick, .step, .step]

def ticksAtEnds : List Signal := [.tick, .step, .step, .keys (Keypad.ofDown [3]), .step, .step, .tick]

theorem ticks_move_freely_at_adder :
    atAdder.tick.step = atAdder.step.tick ∧ (∀ o ∈ atAdder.executed ticksAmongSteps, ¬ o.OneOf Pattern.timing) ∧
      atAdder.play ticksAtEnds = atAdder.play ticksAmongSteps := by
  obtain ⟨hstep, hrun⟩ := ticks_move_freely atAdder
  have hfirst : ¬ atAdder.peek.OneOf Pattern.timing := by decide +kernel
  have hall : ∀ o ∈ atAdder.executed ticksAmongSteps, ¬ o.OneOf Pattern.timing := by decide +kernel
  exact ⟨hstep (.inr (.inr hfirst)), hall, hrun _ _ hall rfl rfl⟩

end State

end Chip8
