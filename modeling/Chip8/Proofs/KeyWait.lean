/-
Waiting for a key. A machine that comes to FX0A with no key down waits there, for as many steps as it
takes, while the timers go on counting and nothing else changes. When a key comes down, the next step
leads to the same state as if the key had been down when the machine came to the instruction, save for
the number of the register, which only a wait notes down.
-/
import Chip8.Proofs.Signal
import Mathlib.Logic.Function.Iterate

namespace Chip8

namespace Signal

def isTick : Signal → Bool
  | tick => true
  | _ => false

/-- The signal brings no key. -/
def Quiet : Signal → Prop
  | keys keypad => ∀ i, keypad.isDown i = false
  | _ => True

instance : DecidablePred Quiet
  | keys keypad => inferInstanceAs (Decidable (∀ i, keypad.isDown i = false))
  | step | tick => inferInstanceAs (Decidable True)

def ticks (es : List Signal) : Nat := es.countP isTick

@[simp] theorem ticks_step (es : List Signal) : ticks (step :: es) = ticks es := List.countP_cons

@[simp] theorem ticks_tick (es : List Signal) : ticks (tick :: es) = ticks es + 1 := List.countP_cons

@[simp] theorem ticks_keys (keypad : Keypad) (es : List Signal) : ticks (keys keypad :: es) = ticks es :=
  List.countP_cons

end Signal

namespace State

open Signal

/-- The machine is about to execute FX0A, and no key is down. -/
structure AtKeyWait (s : State) (x : Fin 16) : Prop where
  running : s.Running
  released : ∀ i, s.keypad.isDown i = false
  opcode : s.peek.Encodes (.awaitKey x)

/-- The state that differs in that the machine waits for a key for VX. -/
def awaiting (s : State) (x : Fin 16) : State := { s with waiting := true, keyRegister := UInt8.ofNat x }

/-! ## Without a key -/

namespace AtKeyWait

variable {s : State} {x : Fin 16}

theorem tick (h : AtKeyWait s x) : AtKeyWait s.tick x :=
  ⟨⟨h.running.fault, h.running.waiting⟩, h.released, h.opcode⟩

theorem ticked (h : AtKeyWait s x) (n : Nat) : AtKeyWait (State.tick^[n] s) x := by
  induction n generalizing s with
  | zero => exact h
  | succ n ih => exact ih h.tick

theorem lowest? (h : AtKeyWait s x) : s.keypad.lowest? = none := s.keypad.lowest?_eq_none_iff.2 h.released

theorem setKeys (h : AtKeyWait s x) {keypad : Keypad} (hk : ∀ i, keypad.isDown i = false) : s.setKeys keypad = s := by
  rw [State.setKeys, Keypad.eq_of_released hk h.released]

/-- The first step begins the wait, and the program counter comes back to the instruction. -/
theorem step (h : AtKeyWait s x) : s.step = s.awaiting x := by
  have hwait : s.advance.awaitKey x = s.advance.suspend x := by
    unfold awaitKey
    rw [show s.advance.keypad.lowest? = none from h.lowest?]
    rfl
  calc s.step = s.advance.awaitKey x := step_of_encodes h.running h.opcode
    _ = s.advance.suspend x := hwait
    _ = s.awaiting x := by rw [suspend, s.advance_pc_sub]; rfl

theorem step_awaiting (h : AtKeyWait s x) : (s.awaiting x).step = s.awaiting x := by
  have hf : (s.awaiting x).fault = 0 := h.running.fault
  have hk : (s.awaiting x).keypad.lowest? = none := h.lowest?
  simp only [State.step, pollKey, hf, hk]
  rfl

/-- Once the machine waits, only the timers move. -/
theorem play_awaiting (h : AtKeyWait s x) {es : List Signal} (hq : ∀ e ∈ es, e.Quiet) :
    (s.awaiting x).play es = (State.tick^[ticks es] s).awaiting x := by
  induction es generalizing s with
  | nil => rfl
  | cons e es ih =>
    obtain ⟨he, hes⟩ := List.forall_mem_cons.1 hq
    cases e with
    | step => rw [play_cons, receive, h.step_awaiting, ih h hes, ticks_step]
    | tick =>
      have htick : (s.awaiting x).tick = s.tick.awaiting x := rfl
      rw [play_cons, receive, htick, ih h.tick hes, ticks_tick, Function.iterate_succ_apply]
    | keys keypad =>
      have hkeys : (s.awaiting x).setKeys keypad = s.awaiting x := congrArg (·.awaiting x) (h.setKeys he)
      rw [play_cons, receive, hkeys, ih h hes, ticks_keys]

theorem play (h : AtKeyWait s x) {es : List Signal} (hq : ∀ e ∈ es, e.Quiet) (hstep : Signal.step ∈ es) :
    s.play es = (State.tick^[ticks es] s).awaiting x := by
  -- up to the first step the machine is at the instruction, with its timers further down
  induction es generalizing s with
  | nil => cases hstep
  | cons e es ih =>
    obtain ⟨he, hes⟩ := List.forall_mem_cons.1 hq
    cases e with
    | step => rw [play_cons, receive, h.step, h.play_awaiting hes, ticks_step]
    | tick =>
      have hes' : Signal.step ∈ es := (List.mem_cons.1 hstep).resolve_left nofun
      rw [play_cons, receive, ih h.tick hes hes', ticks_tick, Function.iterate_succ_apply]
    | keys keypad =>
      have hes' : Signal.step ∈ es := (List.mem_cons.1 hstep).resolve_left nofun
      rw [play_cons, receive, h.setKeys he, ih h hes hes', ticks_keys]

end AtKeyWait

/-! ## With a key -/

/-- The state behind FX0A, with the key in VX. -/
def keyed (s : State) (x : Fin 16) (keypad : Keypad) (key : Fin 16) : State :=
  { s with keypad, registers := s.registers.write x (UInt8.ofNat key), pc := s.pc + 2 }

section

variable {s : State} {x key : Fin 16} {keypad : Keypad}

/-- A key that is down when the machine comes to the instruction is taken at once. -/
theorem AtKeyWait.step_setKeys (h : AtKeyWait s x) (hk : keypad.lowest? = some key) :
    (s.setKeys keypad).step = s.keyed x keypad key := by
  have hr : (s.setKeys keypad).Running := ⟨h.running.fault, h.running.waiting⟩
  rw [step_of_encodes hr (i := .awaitKey x) h.opcode]
  simp only [execute, awaitKey, advance, State.setKeys, hk]
  rfl

/-- A key that comes down during the wait ends it. -/
theorem AtKeyWait.step_awaiting_setKeys (h : AtKeyWait s x) (hk : keypad.lowest? = some key) :
    ((s.awaiting x).setKeys keypad).step = { s.keyed x keypad key with keyRegister := UInt8.ofNat x } := by
  have hf : s.fault = 0 := h.running.fault
  have hw : s.waiting = false := h.running.waiting
  -- a wait notes the register down as a byte, which gives its number back
  have hx : (UInt8.ofNat x).toNat = x.val := by
    rw [UInt8.toNat_ofNat']
    omega
  simp only [State.step, pollKey, State.setKeys, awaiting, keyed, hf, hw, hk, hx]
  simp

end

theorem ticked_pc (s : State) (n : Nat) : (tick^[n] s).pc = s.pc := by
  induction n generalizing s with
  | zero => rfl
  | succ n ih => exact ih s.tick

/-- Let a running machine be at FX0A with no key down. Steps and ticks in any order, with at least one
step and no snapshot of a pressed key among them, only start the wait and move the timers. If then a key
comes down, one step leads to the state that it would have led to without the wait, save for the number
of the register; both ways the lowest key is in VX and the program counter behind the instruction. -/
theorem wait_agrees_with_no_wait {s : State} {x : Fin 16} (h : AtKeyWait s x) {es : List Signal}
    (hq : ∀ e ∈ es, e.Quiet) (hstep : Signal.step ∈ es) :
    s.play es = { tick^[ticks es] s with waiting := true, keyRegister := UInt8.ofNat x } ∧
    ∀ keypad : Keypad, (∃ i, keypad.isDown i = true) →
      ∃ key, keypad.isDown key = true ∧ (∀ i < key, keypad.isDown i = false) ∧
        let late := ((s.play es).setKeys keypad).step
        let prompt := ((tick^[ticks es] s).setKeys keypad).step
        late = { prompt with keyRegister := UInt8.ofNat x } ∧
        late.v x = UInt8.ofNat key ∧ prompt.v x = UInt8.ofNat key ∧
        late.pc = s.pc + 2 ∧ prompt.pc = s.pc + 2 := by
  have ht : AtKeyWait (tick^[ticks es] s) x := h.ticked _
  have hplay : s.play es = (tick^[ticks es] s).awaiting x := h.play hq hstep
  refine ⟨hplay, fun keypad ⟨i, hi⟩ => ?_⟩
  obtain ⟨key, hkey⟩ := Keypad.exists_lowest? hi
  obtain ⟨hdown, hlowest⟩ := Keypad.lowest?_eq_some hkey
  refine ⟨key, hdown, hlowest, ?_⟩
  rw [hplay, ht.step_awaiting_setKeys hkey, ht.step_setKeys hkey]
  have hv : ((tick^[ticks es] s).registers.write x (UInt8.ofNat key)).read x = UInt8.ofNat key :=
    Registers.read_write_self ..
  have hpc : (tick^[ticks es] s).pc + 2 = s.pc + 2 := by rw [ticked_pc]
  exact ⟨rfl, hv, hv, hpc, hpc⟩

/-- A machine at F30A in the last two cells of memory, where the program counter is about to wrap. -/
def atLastKeyWait : State :=
  { powerOn ⟨false, false, false, false⟩ ⟨0, 0⟩ with pc := 0xFFFE, delay := 2 }.withOpcode 0xF3 0x0A

/-- A wait of three steps, with ticks before, in and after it. -/
def throughWait : List Signal := [.tick, .step, .keys Keypad.released, .tick, .step, .tick, .step]

def keysAfterWait : Keypad := Keypad.ofDown [9, 4]

theorem wait_agrees_with_no_wait_at_wrap :
    (atLastKeyWait.play throughWait).waiting = true ∧ (atLastKeyWait.play throughWait).delay = 0 ∧
      ((atLastKeyWait.play throughWait).setKeys keysAfterWait).step =
        { ((tick^[3] atLastKeyWait).setKeys keysAfterWait).step with keyRegister := UInt8.ofNat (3 : Fin 16) } ∧
      ((atLastKeyWait.play throughWait).setKeys keysAfterWait).step.v 3 = 4 ∧
      ((atLastKeyWait.play throughWait).setKeys keysAfterWait).step.pc = 0 := by
  have hop : atLastKeyWait.peek.Encodes (.awaitKey 3) := by
    rw [atLastKeyWait, peek_withOpcode]
    decide
  have hat : AtKeyWait atLastKeyWait 3 := ⟨⟨rfl, rfl⟩, by decide, hop⟩
  have hq : ∀ e ∈ throughWait, e.Quiet := by decide
  have hticks : ticks throughWait = 3 := rfl
  obtain ⟨hplay, hkeys⟩ := wait_agrees_with_no_wait hat hq (.tail _ (.head _))
  rw [hticks] at hplay hkeys
  obtain ⟨key, hdown, hlowest, hlate, hv, -, hpc, -⟩ := hkeys keysAfterWait ⟨4, by decide⟩
  have hfour : ∀ key : Fin 16, keysAfterWait.isDown key = true →
      (∀ i < key, keysAfterWait.isDown i = false) → key = 4 := by decide
  obtain rfl := hfour key hdown hlowest
  exact ⟨by rw [hplay], by rw [hplay]; rfl, hlate, hv, hpc⟩

end State

end Chip8
