/-
Whole histories of a machine. A driver gives commands: to step, to tick, to run many steps or a frame, to
take over a keypad, to reset, to load. A command that is refused changes nothing. The chronicle of a list of
commands tells, in their order, which instructions were executed, in which states, and where ticks and resets
came between. What no single one of these happenings can break holds of every history (`Kept.obeyAll`).
-/
import Chip8.Batch
import Chip8.KeyInput
import Chip8.Number
import Chip8.Proofs.Progress
import Chip8.Proofs.Signal

namespace Chip8

inductive Command where
  | step
  | tick
  /-- So many steps, beside a progress bar or alone. -/
  | run (n : Int) (shown : Bool)
  /-- A frame of so many steps. -/
  | frame (length : Datum)
  | keys (d : Datum)
  | reset
  | load (p : Payload)

inductive Happening where
  /-- The instruction that the program counter of this state points to was executed. -/
  | executed (s : State)
  | ticked
  | reset

namespace State

def obey? (s : State) : Command → Except Error State
  | .step => .ok s.step
  | .tick => .ok s.tick
  | .run n true => (s.runShown n).map Prod.fst
  | .run n false => s.runMany n
  | .frame length => length.times.map s.frame
  | .keys d => (Keypad.ofDatum d).map s.setKeys
  | .reset => .ok s.reset
  | .load p => s.load p

/-- The state after a command, which is the state before it if the command is refused. -/
def obey (s : State) (c : Command) : State :=
  match s.obey? c with
  | .ok t => t
  | .error _ => s

def obeyAll (s : State) (cs : List Command) : State := cs.foldl obey s

/-! ## Chronicles -/

/-- The instructions executed in `n` steps. -/
def executions : Nat → State → List Happening
  | 0, _ => []
  | n + 1, s => (if s.Running then [.executed s] else []) ++ executions n s.step

/-- What happens at a command: nothing if it is refused. -/
def happenings (s : State) : Command → List Happening
  | .step => executions 1 s
  | .tick => [.ticked]
  | .run n shown => if (s.obey? (.run n shown)).isOk then executions n.toNat s else []
  | .frame length => match length.times with
    | .ok n => executions n s ++ [.ticked]
    | .error _ => []
  | .reset => [.reset]
  | .keys _ | .load _ => []

def chronicle (s : State) : List Command → List Happening
  | [] => []
  | c :: cs => s.happenings c ++ (s.obey c).chronicle cs

theorem chronicle_append (s : State) (cs ds : List Command) :
    s.chronicle (cs ++ ds) = s.chronicle cs ++ (s.obeyAll cs).chronicle ds := by
  induction cs generalizing s with
  | nil => rfl
  | cons c cs ih =>
    rw [List.cons_append, chronicle, ih, chronicle, List.append_assoc, obeyAll, obeyAll, List.foldl_cons]

end State

/-! ## What histories keep -/

/-- Something about a state and what has happened so far that nothing a driver does can break. -/
structure Kept (I : State → List Happening → Prop) : Prop where
  executed : ∀ {s past}, I s past → s.Running → I s.step (past ++ [.executed s])
  still : ∀ {s past}, I s past → ¬ s.Running → I s.step past
  ticked : ∀ {s past}, I s past → I s.tick (past ++ [.ticked])
  keys : ∀ {s past} (keypad : Keypad), I s past → I (s.setKeys keypad) past
  loaded : ∀ {s past} (memory : Memory), I s past → I { s with memory } past
  reset : ∀ {s past}, I s past → I s.reset (past ++ [.reset])

open State

theorem State.foldl_step (s : State) (is : List Int) : is.foldl (fun s _ => s.step) s = run is.length s := by
  induction is generalizing s with
  | nil => rfl
  | cons i is ih => exact ih s.step

/-- The steps of a run are the same with a progress bar and without it. -/
theorem State.run_of_obey? {s t : State} {n : Int} {shown : Bool} (h : s.obey? (.run n shown) = .ok t) :
    t = run n.toNat s := by
  cases shown with
  | false =>
    simp only [obey?, runMany] at h
    split at h
    · cases h
      rfl
    · cases h
  | true =>
    simp only [obey?, runShown] at h
    split at h
    · rw [Progress.Bar.loop_eq] at h
      cases hheard : (runBar n).events (Progress.iterations n) .prepared with
      | error e =>
        rw [hheard] at h
        cases h
      | ok events =>
        rw [hheard] at h
        cases h
        rw [foldl_step]
        simp [Progress.iterations]
    · cases h

namespace Kept

variable {I : State → List Happening → Prop} {s : State} {past : List Happening}

theorem run (h : Kept I) (hs : I s past) (n : Nat) : I (State.run n s) (past ++ executions n s) := by
  induction n generalizing s past with
  | zero =>
    rw [executions, List.append_nil]
    exact hs
  | succ n ih =>
    rw [executions, ← List.append_assoc]
    by_cases hr : s.Running
    · rw [if_pos hr]
      exact ih (h.executed hs hr)
    · rw [if_neg hr, List.append_nil]
      exact ih (h.still hs hr)

theorem obey (h : Kept I) (hs : I s past) (c : Command) : I (s.obey c) (past ++ s.happenings c) := by
  cases c with
  | step => exact h.run hs 1
  | tick => exact h.ticked hs
  | reset => exact h.reset hs
  | run n shown =>
    simp only [State.obey, happenings]
    cases hrun : s.obey? (.run n shown) with
    | error e => simpa [Except.isOk, Except.toBool] using hs
    | ok t =>
      rw [run_of_obey? hrun]
      exact h.run hs n.toNat
  | frame length =>
    simp only [State.obey, obey?, happenings]
    cases length.times with
    | error e =>
      rw [List.append_nil]
      exact hs
    | ok n =>
      rw [← List.append_assoc]
      exact h.ticked (h.run hs n)
  | keys d =>
    simp only [State.obey, obey?, happenings, List.append_nil]
    cases Keypad.ofDatum d with
    | error e => exact hs
    | ok keypad => exact h.keys keypad hs
  | load p =>
    simp only [State.obey, obey?, happenings, List.append_nil]
    cases hload : s.load p with
    | error e => exact hs
    | ok t =>
      obtain ⟨image, -, -, rfl⟩ := load_eq hload
      exact h.loaded _ hs

/-- What no single happening can break holds after any number of commands. -/
theorem obeyAll (h : Kept I) (hs : I s past) (cs : List Command) :
    I (s.obeyAll cs) (past ++ s.chronicle cs) := by
  induction cs generalizing s past with
  | nil =>
    rw [chronicle, List.append_nil]
    exact hs
  | cons c cs ih =>
    rw [chronicle, ← List.append_assoc]
    exact ih (h.obey hs c)

end Kept

end Chip8
