/-
The timers. A timer shows what it was last set to, less the ticks since then, and nothing below zero; a reset
clears it. No other instruction and no other command moves a timer, and a machine that waits or has stopped does
not hold it up.
-/
import Chip8.Proofs.History
import Chip8.Proofs.Writes

namespace Chip8

/-! ## What a history says of a timer -/

namespace Happening

def isReset : Happening → Bool
  | reset => true
  | _ => false

def isTick : Happening → Bool
  | ticked => true
  | _ => false

/-- The byte in VX when the instruction was executed. -/
def operand : Happening → Nat
  | executed s => (s.v s.peek.x).toNat
  | _ => 0

/-- What has happened since the last reset, the latest first. -/
def sinceReset (history : List Happening) : List Happening := history.reverse.takeWhile fun e => !e.isReset

variable (history : List Happening)

theorem sinceReset_reset : sinceReset (history ++ [.reset]) = [] := by
  simp [sinceReset, isReset]

theorem sinceReset_concat {e : Happening} (h : e.isReset = false) :
    sinceReset (history ++ [e]) = e :: sinceReset history := by
  simp [sinceReset, h]

end Happening

inductive Timer where
  | delay
  | sound

namespace Timer

/-- The opcodes that set the timer, FX15 or FX18. -/
def opcodes : Timer → Pattern
  | delay => .low 0xF 0x15
  | sound => .low 0xF 0x18

def isSetBy (t : Timer) : Happening → Bool
  | .executed s => decide (t.opcodes.Fits s.peek)
  | _ => false

/-- The value that the timer was set to last since the last reset; 0 if it was not set. -/
def lastValue (t : Timer) (history : List Happening) : Nat :=
  ((Happening.sinceReset history).find? t.isSetBy).elim 0 Happening.operand

/-- The ticks since then, or since the reset. -/
def ticksSince (t : Timer) (history : List Happening) : Nat :=
  ((Happening.sinceReset history).takeWhile fun e => !t.isSetBy e).countP Happening.isTick

variable (t : Timer) (history : List Happening)

theorem after_reset : t.lastValue (history ++ [.reset]) = 0 := by
  rw [lastValue, Happening.sinceReset_reset]
  rfl

variable {t}

theorem after_setting {s : State} (h : t.opcodes.Fits s.peek) :
    t.lastValue (history ++ [.executed s]) = (s.v s.peek.x).toNat ∧ t.ticksSince (history ++ [.executed s]) = 0 := by
  have hset : t.isSetBy (.executed s) = true := decide_eq_true h
  unfold lastValue ticksSince
  rw [Happening.sinceReset_concat _ rfl]
  simp [hset, Happening.operand]

theorem after_other {e : Happening} (hreset : e.isReset = false) (hset : t.isSetBy e = false) :
    t.lastValue (history ++ [e]) = t.lastValue history ∧
      t.ticksSince (history ++ [e]) = t.ticksSince history + if e.isTick then 1 else 0 := by
  unfold lastValue ticksSince
  rw [Happening.sinceReset_concat _ hreset]
  simp [hset, List.countP_cons]

end Timer

namespace State

/-! ## What a machine does to a timer -/

def timer (s : State) : Timer → UInt8
  | .delay => s.delay
  | .sound => s.sound

variable {s : State} {t : Timer}

theorem lower_toNat (b : UInt8) : (if b = 0 then 0 else b - 1).toNat = b.toNat - 1 := by
  by_cases h : b = 0
  · subst h
    rfl
  · have hne : b.toNat ≠ 0 := fun h0 => h (UInt8.toNat_inj.1 h0)
    have hle : 1 ≤ b := UInt8.le_iff_toNat_le.2 (Nat.one_le_iff_ne_zero.2 hne)
    rw [if_neg h]
    exact UInt8.toNat_sub_of_le _ _ hle

theorem timer_tick (s : State) (t : Timer) : (s.tick.timer t).toNat = (s.timer t).toNat - 1 := by
  cases t <;> exact lower_toNat _

theorem timer_step_of_still (h : ¬ s.Running) : s.step.timer t = s.timer t := by
  rcases step_of_still h with hstep | ⟨k, hstep⟩
  · rw [hstep]
  · rw [hstep]
    cases t <;> rfl

theorem timer_step_of_setting (hr : s.Running) (h : t.opcodes.Fits s.peek) : s.step.timer t = s.v s.peek.x := by
  cases t with
  | delay =>
    rw [step_of_encodes hr (i := .setDelay s.peek.x) ⟨h.1, h.2, rfl⟩]
    rfl
  | sound =>
    rw [step_of_encodes hr (i := .setSound s.peek.x) ⟨h.1, h.2, rfl⟩]
    rfl

theorem timer_step_of_other (hr : s.Running) (h : ¬ t.opcodes.Fits s.peek) : s.step.timer t = s.timer t := by
  rw [← Opcode.oneOf_singleton] at h
  cases t with
  | delay => exact not_imp_comm.1 (step_confined hr).delay h
  | sound => exact not_imp_comm.1 (step_confined hr).sound h

/-! ## Over whole histories -/

/-- The timer shows its last value less the ticks since then. -/
def Shows (t : Timer) (s : State) (history : List Happening) : Prop :=
  (s.timer t).toNat = t.lastValue history - t.ticksSince history

theorem kept_shows (t : Timer) : Kept (Shows t) where
  executed {s past} h hr := by
    unfold Shows at h ⊢
    by_cases hset : t.opcodes.Fits s.peek
    · obtain ⟨hvalue, hticks⟩ := Timer.after_setting past hset
      rw [timer_step_of_setting hr hset, hvalue, hticks, Nat.sub_zero]
    · obtain ⟨hvalue, hticks⟩ := Timer.after_other past (e := .executed s) rfl (decide_eq_false hset)
      rw [timer_step_of_other hr hset, hvalue, hticks]
      exact h
  still {s past} h hr := by
    unfold Shows at h ⊢
    rw [timer_step_of_still hr]
    exact h
  ticked {s past} h := by
    unfold Shows at h ⊢
    obtain ⟨hvalue, hticks⟩ := Timer.after_other (t := t) past (e := .ticked) rfl rfl
    rw [timer_tick, h, hvalue, hticks]
    exact Nat.sub_sub ..
  keys _ h := by cases t <;> exact h
  loaded _ h := by cases t <;> exact h
  reset {s past} h := by
    unfold Shows
    rw [t.after_reset past, Nat.zero_sub]
    cases t <;> rfl

/-- After any commands to a machine just switched on, waiting or stopped or neither, each timer shows the value it
was last set to since the last reset, less the ticks since then, and nothing below zero. -/
theorem timer_after_commands (d : Dialect) (k : RandomKey) (cs : List Command) (t : Timer) :
    let history := (powerOn d k).chronicle cs
    (((powerOn d k).obeyAll cs).timer t).toNat = t.lastValue history - t.ticksSince history := by
  have hstart : Shows t (powerOn d k) [] := by cases t <;> rfl
  exact (kept_shows t).obeyAll hstart cs

end State

end Chip8
