/-
Fresh starts. A load begins with a reset, and of all that a machine has been through a reset leaves nothing but
the random key. The key matters to no instruction but CXNN. So a machine with any past, once it has loaded a
program, does the same and answers the same as a new one that has loaded it, until a random number is drawn.
-/
import Chip8.Proofs.Bystanders
import Chip8.Proofs.Stopped

namespace Chip8

/-- Puts another random key in the place of the one that is there. -/
def Adjustment.rekey (k : RandomKey) : Adjustment := ⟨fun _ => k, id, id⟩

theorem Adjustment.rekey_clears (k : RandomKey) {o : Opcode} (h : ¬ o.OneOf [.family 0xC]) : (rekey k).Clears o where
  key ho := absurd ho h
  delay _ := rfl
  sound _ := rfl

namespace State

theorem load_adjust (s : State) (a : Adjustment) (p : Payload) : (s.adjust a).load p = (s.load p).map (adjust · a) := by
  unfold load
  cases p.toBytes with
  | error e => rfl
  | ok image =>
    simp only
    split_ifs <;> rfl

theorem step_dialect (s : State) : s.step.dialect = s.dialect := by
  by_cases hr : s.Running
  · exact (step_confined hr).dialect
  · rcases step_of_still hr with h | ⟨k, h⟩
    · rw [h]
    · rw [h]
      rfl

/-- What no step changes no run changes. -/
theorem run_keeps {α : Type} {part : State → α} (h : ∀ s : State, part s.step = part s) (n : Nat) (s : State) :
    part (run n s) = part s := by
  induction n generalizing s with
  | zero => rfl
  | succ n ih => exact (ih s.step).trans (h s)

theorem run_dialect (n : Nat) (s : State) : (run n s).dialect = s.dialect := run_keeps step_dialect n s

end State

namespace Machine

open State

/-! ## What a driver sees -/

/-- The opcodes that an operation makes a machine execute. A stopped machine, which refuses to move, executes none. -/
def executes (frameLength : Except Error Nat) (s : State) : Operation → List Opcode
  | .step => s.executed [.step]
  | .frame => match frameLength with
    | .ok n => s.executed (List.replicate n .step)
    | .error _ => []
  | _ => []

/-- The opcodes that are executed in a list of operations, the first one first. -/
def executed (m : Machine) : List Operation → List Opcode
  | [] => []
  | op :: ops => executes m.frameLength m.state op ++ (m.perform op).1.executed ops

/-- The answer to each of a list of operations, and the state after it. -/
def outcomes (m : Machine) : List Operation → List (Except Error Reply × State)
  | [] => []
  | op :: ops => ((m.perform op).2.1, (m.perform op).1.state) :: (m.perform op).1.outcomes ops

/-! ## One operation -/

def Effect.adjust (e : Effect) (a : Adjustment) : Effect := { e with state := e.state.adjust a }

section

variable (s : State) (k : RandomKey)

theorem settle_rekey (r : Reply) : Effect.settle (s.adjust (.rekey k)) r = (Effect.settle s r).adjust (.rekey k) := by
  have hrefusal : (s.adjust (.rekey k)).refusal? = s.refusal? := rfl
  unfold Effect.settle
  rw [hrefusal]
  cases s.refusal? <;> rfl

theorem setKey_rekey (key : Datum) (down : Bool) :
    setKey (s.adjust (.rekey k)) key down = (setKey s key down).adjust (.rekey k) := by
  unfold setKey
  cases Keypad.keyOfDatum key <;> rfl

theorem load_rekey (p : Payload) : load (s.adjust (.rekey k)) p = (load s p).adjust (.rekey k) := by
  have hreset : (s.adjust (.rekey k)).reset = s.reset.adjust (.rekey k) := rfl
  unfold load
  rw [hreset, load_adjust]
  cases s.reset.load p with
  | error e => rfl
  | ok t => cases p.length? <;> rfl

end

/-- A machine with another random key answers an operation as it would with its own, and says the same,
unless it draws a random number. -/
theorem act_rekey {frameLength : Except Error Nat} {s : State} {op : Operation}
    (h : ∀ o ∈ executes frameLength s op, ¬ o.OneOf [.family 0xC]) (k : RandomKey) :
    act frameLength (s.adjust (.rekey k)) op = (act frameLength s op).adjust (.rekey k) := by
  -- a refusal does not look at the key, so both machines are refused or neither is
  have hrefusal : (s.adjust (.rekey k)).refusal? = s.refusal? := rfl
  cases op with
  | load p => exact load_rekey s k p
  | step =>
    have hstep : (s.adjust (.rekey k)).step = s.step.adjust (.rekey k) :=
      run_adjust (n := 1) fun o ho => Adjustment.rekey_clears k (h o ho)
    simp only [act, hrefusal]
    cases s.refusal? with
    | some e => rfl
    | none =>
      rw [hstep]
      exact settle_rekey s.step k _
  | frame =>
    simp only [act, hrefusal]
    cases s.refusal? with
    | some e => rfl
    | none =>
      cases frameLength with
      | error e => rfl
      | ok n =>
        have hframe : (s.adjust (.rekey k)).frame n = (s.frame n).adjust (.rekey k) :=
          congrArg tick (run_adjust fun o ho => Adjustment.rekey_clears k (h o ho))
        simp only [hframe]
        exact settle_rekey (s.frame n) k _
  | press key => exact setKey_rekey s k key true
  | release key => exact setKey_rekey s k key false
  | setKeys d =>
    simp only [act]
    cases Keypad.ofDatum d <;> rfl
  | tick | reset | dump => rfl

/-- A load depends on nothing that was there before but the dialect and the random key. -/
theorem load_of_dialect {s t : State} (h : t.dialect = s.dialect) (p : Payload) :
    load t p = (load s p).adjust (.rekey t.randomKey) := by
  have hreset : t.reset = (s.adjust (.rekey t.randomKey)).reset := by
    unfold State.reset
    rw [h]
    rfl
  rw [← load_rekey]
  unfold load
  rw [hreset]

/-! ## Two machines -/

/-- The machines differ in nothing but the random key, which is `k` in the second of them, and in their logs, which
both tell the time. -/
structure Twins (k : RandomKey) (a b : Machine) : Prop where
  frames : b.frameLength = a.frameLength
  state : b.state = a.state.adjust (.rekey k)
  tells : a.console.clock.Tells ∧ b.console.clock.Tells

theorem twins_of_act {k : RandomKey} {a b : Machine} {op : Operation} (hframes : b.frameLength = a.frameLength)
    (htells : a.console.clock.Tells ∧ b.console.clock.Tells)
    (hact : act b.frameLength b.state op = (act a.frameLength a.state op).adjust (.rekey k)) :
    (b.perform op).2.1 = (a.perform op).2.1 ∧ Twins k (a.perform op).1 (b.perform op).1 := by
  obtain ⟨ha, hatells⟩ := perform_of_tells htells.1 op
  obtain ⟨hb, hbtells⟩ := perform_of_tells htells.2 op
  refine ⟨?_, hframes, congrArg Effect.state hact, hatells, hbtells⟩
  rw [ha, hb, hact]
  rfl

theorem Twins.perform {k : RandomKey} {a b : Machine} (h : Twins k a b) {op : Operation}
    (hop : ∀ o ∈ executes a.frameLength a.state op, ¬ o.OneOf [.family 0xC]) :
    (b.perform op).2.1 = (a.perform op).2.1 ∧ Twins k (a.perform op).1 (b.perform op).1 := by
  refine twins_of_act h.frames h.tells ?_
  rw [h.frames, h.state]
  exact act_rekey hop k

theorem Twins.outcomes {k : RandomKey} {a b : Machine} (h : Twins k a b) {ops : List Operation}
    (hops : ∀ o ∈ a.executed ops, ¬ o.OneOf [.family 0xC]) :
    b.outcomes ops = (a.outcomes ops).map fun (reply, s) => (reply, { s with randomKey := k }) := by
  -- the key of the second machine is the same all the way, since no number is drawn
  induction ops generalizing a b with
  | nil => rfl
  | cons op ops ih =>
    rw [executed, List.forall_mem_append] at hops
    obtain ⟨hop, hrest⟩ := hops
    obtain ⟨hreply, htwins⟩ := h.perform hop
    rw [Machine.outcomes, Machine.outcomes, List.map_cons, ih htwins hrest, hreply, htwins.state]
    rfl

/-! ## Any past -/

theorem Moved.dialect {s t : State} (h : Moved s t) : t.dialect = s.dialect := by
  cases h with
  | stepped => exact step_dialect s
  | framed n => exact run_dialect n s
  | same | ticked | keyed | restarted => rfl

theorem performAll_dialect (m : Machine) (ops : List Operation) :
    (m.performAll ops).state.dialect = m.state.dialect := by
  induction ops generalizing m with
  | nil => rfl
  | cons op ops ih => exact (ih (m.perform op).1).trans (act_moved m.frameLength m.state op).dialect

theorem performAll_frameLength (m : Machine) (ops : List Operation) :
    (m.performAll ops).frameLength = m.frameLength := by
  induction ops generalizing m with
  | nil => rfl
  | cons op ops ih => exact ih (m.perform op).1

/-- Take a machine that was used in any way, and a new one of the same dialect and with frames of the same length,
whatever its seed, both with clocks that tell the time. Let both load an image, and then perform the same operations.
If in these the new machine executes no CXNN, then the two give the same answers and raise the same errors, and after
each operation they are in the same state but for the random key, which in the used machine stays what it was. -/
theorem load_erases_history {c c' : Settings} {terminal terminal' : Bool} {clock clock' : Log.Clock}
    {used new : Machine} {lines lines' : List String}
    (hused : create c terminal clock = .ok (used, lines)) (hnew : create c' terminal' clock' = .ok (new, lines'))
    (hclock : clock.Tells) (hclock' : clock'.Tells)
    (hdialect : c'.dialect = c.dialect) (hframes : c'.frameLength = c.frameLength)
    (past : List Operation) (p : Payload) (ops : List Operation)
    (hops : ∀ o ∈ new.executed (.load p :: ops), ¬ o.OneOf [.family 0xC]) :
    (used.performAll past).outcomes (.load p :: ops) =
      (new.outcomes (.load p :: ops)).map fun (reply, s) =>
        (reply, { s with randomKey := (used.performAll past).state.randomKey }) := by
  obtain ⟨k, hu⟩ := create_eq hused
  obtain ⟨k', hn⟩ := create_eq hnew
  -- of all that the past has left, a load looks at the dialect only
  have hlength : (used.performAll past).frameLength = new.frameLength := by
    rw [performAll_frameLength, hu, hn]
    exact congrArg Datum.times hframes.symm
  have hsame : (used.performAll past).state.dialect = new.state.dialect := by
    rw [performAll_dialect, hu, hn]
    exact hdialect.symm
  have hlogs : new.console.clock.Tells ∧ (used.performAll past).console.clock.Tells :=
    ⟨(create_reachable hnew).2 hclock', performAll_tells ((create_reachable hused).2 hclock) past⟩
  have hload : act (used.performAll past).frameLength (used.performAll past).state (.load p) =
      (act new.frameLength new.state (.load p)).adjust (.rekey (used.performAll past).state.randomKey) :=
    load_of_dialect hsame p
  obtain ⟨hreply, htwins⟩ := twins_of_act hlength hlogs hload
  rw [executed, List.forall_mem_append] at hops
  obtain ⟨-, hrest⟩ := hops
  rw [outcomes, outcomes, List.map_cons, htwins.outcomes hrest, hreply, htwins.state]
  rfl

/-- A program that waits for a key, takes it into V5, and returns from nowhere. -/
def waiter : Payload := .bytes [0xF5, 0x0A, 0x00, 0xEE]

/-- A machine used for a while: it waits, stops, refuses an image, and runs a program that writes over itself. -/
def mishaps : List Operation :=
  [.load waiter, .step, .frame, .press (.int 3), .step, .step, .step, .load (.value (.int 2)),
    .load (.bytes [0xA2, 0x04, 0xF1, 0x55, 0x60, 0x01, 0xF0, 0x0A]), .step, .step, .tick, .step]

/-- What is done with both machines: they wait for a frame, stop in the next, refuse a key, and start over. -/
def errands : List Operation := [.frame, .tick, .press (.int 7), .frame, .press (.int 16), .dump, .reset]

def ofSeed (seed : Int) : Settings := { Settings.default with seed := .int seed, frameLength := .int 2 }

theorem load_erases_history_of_mishaps :
    ∃ used new lines lines',
      create (ofSeed 1) false (.ofReadings [.fraction 0.5]) = .ok (used, lines) ∧
      create (ofSeed 2) true (.ofReadings [.fraction 1.5]) = .ok (new, lines') ∧
      (used.performAll mishaps).outcomes (.load waiter :: errands) =
        (new.outcomes (.load waiter :: errands)).map fun (reply, s) =>
          (reply, { s with randomKey := (used.performAll mishaps).state.randomKey }) := by
  have hused := create_silent (ofSeed 1) false (.ofReadings [.fraction 0.5]) (k := ⟨0, 1⟩) rfl (by decide +kernel)
  have hnew := create_silent (ofSeed 2) true (.ofReadings [.fraction 1.5]) (k := ⟨0, 2⟩) rfl (by decide +kernel)
  have hclock : (Log.Clock.ofReadings [.fraction 0.5]).Tells := Log.Clock.tells_ofReadings (by simp) (by simp)
  have hclock' : (Log.Clock.ofReadings [.fraction 1.5]).Tells := Log.Clock.tells_ofReadings (by simp) (by simp)
  exact ⟨_, _, _, _, hused, hnew,
    load_erases_history hused hnew hclock hclock' rfl rfl mishaps waiter errands (by decide +kernel)⟩

end Machine

end Chip8
