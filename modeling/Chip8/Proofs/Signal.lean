/-
Runs of a machine under a driver. A driver sends three kinds of signals: go one step, tick the
timers, and here is what the keypad looks like now; `play` feeds a list of them to a state. The
reachable states are those that come from a machine just switched on by signals, resets and program
loads in any order. In all of them the call stack is tidy.
-/
import Chip8.Program
import Chip8.Proofs.CallStack
import Chip8.Proofs.Outcome

namespace Chip8

/-- What a driver sends to a running machine. -/
inductive Signal where
  | step
  | tick
  /-- A new snapshot of the keypad. -/
  | keys (keypad : Keypad)

namespace Signal

def isStep : Signal → Bool
  | step => true
  | _ => false

def steps (es : List Signal) : Nat := es.countP isStep

@[simp] theorem steps_step (es : List Signal) : steps (step :: es) = steps es + 1 := List.countP_cons

@[simp] theorem steps_tick (es : List Signal) : steps (tick :: es) = steps es := List.countP_cons

@[simp] theorem steps_keys (keypad : Keypad) (es : List Signal) : steps (keys keypad :: es) = steps es :=
  List.countP_cons

end Signal

namespace State

/-- Takes over a snapshot of the keypad. -/
def setKeys (s : State) (keypad : Keypad) : State := { s with keypad }

/-- The state after one signal. -/
def receive (s : State) : Signal → State
  | .step => s.step
  | .tick => s.tick
  | .keys keypad => s.setKeys keypad

/-- The state after a list of signals, the first of the list first. -/
def play (s : State) (signals : List Signal) : State := signals.foldl receive s

@[simp] theorem play_nil (s : State) : s.play [] = s := rfl

@[simp] theorem play_cons (s : State) (e : Signal) (es : List Signal) : s.play (e :: es) = (s.receive e).play es := rfl

theorem play_append (s : State) (es fs : List Signal) : s.play (es ++ fs) = (s.play es).play fs :=
  List.foldl_append ..

theorem play_concat (s : State) (es : List Signal) (e : Signal) : s.play (es ++ [e]) = (s.play es).receive e := by
  rw [play_append]; rfl

/-! ## What is executed in a run -/

instance (s : State) : Decidable s.Running :=
  decidable_of_iff (s.fault = 0 ∧ s.waiting = false) ⟨fun h => ⟨h.1, h.2⟩, fun h => ⟨h.1, h.2⟩⟩

/-- The opcode that a signal makes the machine execute, if it does. -/
def executes (s : State) : Signal → List Opcode
  | .step => if s.Running then [s.peek] else []
  | _ => []

/-- The opcodes that are executed in a run, the first one first. -/
def executed (s : State) : List Signal → List Opcode
  | [] => []
  | e :: es => s.executes e ++ (s.receive e).executed es

theorem executed_append (s : State) (es fs : List Signal) :
    s.executed (es ++ fs) = s.executed es ++ (s.play es).executed fs := by
  induction es generalizing s with
  | nil => rfl
  | cons e es ih => rw [List.cons_append, executed, ih, executed, List.append_assoc, play_cons]

/-! ## Reachable states -/

/-- The states that a machine comes to. -/
inductive Reachable : State → Prop where
  | powerOn (d : Dialect) (k : RandomKey) : Reachable (powerOn d k)
  | receive {s : State} (e : Signal) : Reachable s → Reachable (s.receive e)
  | reset {s : State} : Reachable s → Reachable s.reset
  | load {s t : State} {p : Payload} : Reachable s → s.load p = .ok t → Reachable t

theorem Reachable.play {s : State} (h : s.Reachable) (es : List Signal) : (s.play es).Reachable := by
  induction es generalizing s with
  | nil => exact h
  | cons e es ih => exact ih (h.receive e)

/-- A load that succeeds has stored all bytes of an image that fits, and changed nothing else. -/
theorem load_eq {s t : State} {p : Payload} (h : s.load p = .ok t) :
    ∃ image, p.toBytes = .ok image ∧ image.length ≤ Memory.programRoom ∧
      t = { s with memory := s.memory.writeAll Memory.programStart image } := by
  unfold load at h
  split at h
  · cases h
  · next image himage =>
    split_ifs at h with hlarge hflat
    exact ⟨image, himage, by omega, (Except.ok.inj h).symm⟩

/-- Bytes that fit are stored. -/
theorem load_bytes (s : State) {data : List UInt8} (h : data.length ≤ Memory.programRoom) :
    s.load (.bytes data) = .ok { s with memory := s.memory.writeAll Memory.programStart data } := by
  simp only [load, Payload.toBytes, Payload.isFlat, Bool.true_or, if_true]
  rw [if_neg (by omega)]

theorem tidy_empty : CallStack.empty.Tidy := by
  rw [← CallStack.ofList_nil]
  exact CallStack.tidy_ofList (by simp)

/-- An instruction keeps the stack tidy. -/
theorem Outcome.tidy {s t : State} {i : Instruction} (h : Outcome s i t) (hs : s.stack.Tidy) : t.stack.Tidy := by
  cases h with
  | plain _ _ _ h => rw [h.stack]; exact hs
  | called h => exact hs.push h
  | returned h => exact hs.pop h
  | overflow | underflow | pressed | wait => exact hs

theorem step_tidy {s : State} (hs : s.stack.Tidy) : s.step.stack.Tidy := by
  have h := step_stepped s
  generalize s.step = t at h ⊢
  cases h with
  | stopped | idle | resumed => exact hs
  | executed _ _ h => exact h.tidy hs

theorem Reachable.tidy {s : State} (h : s.Reachable) : s.stack.Tidy := by
  induction h with
  | powerOn | reset => exact tidy_empty
  | receive e _ ih =>
    cases e with
    | step => exact step_tidy ih
    | tick | keys => exact ih
  | load _ h ih =>
    obtain ⟨image, -, -, rfl⟩ := load_eq h
    exact ih

end State

end Chip8
