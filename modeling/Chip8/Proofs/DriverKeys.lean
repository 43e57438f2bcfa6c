/-
Who moves the keys. A key is as the driver has last put it since the machine was last started, by a press, by a
release or by a snapshot of the whole keypad, and up if it was put nowhere since. The machine itself only looks at
the keys, also where it waits for one, stops, or runs a whole frame. A key that does not exist and a snapshot that
is no row of sixteen are refused, and what is refused changes nothing.
-/
import Chip8.Proofs.FreshStart

namespace Chip8

/-! ## Snapshots -/

namespace Datum

/-- The table of truth values that a value stands for: its shape, and the truth values row by row. A value with a
null in it stands for none, nor does a list whose items differ in shape. -/
def truths? (d : Datum) : Option (List Nat × List Bool) :=
  if d.hasNull then none else d.shape?.map fun shape => (shape, d.leaves.map isTrue)

theorem leaves_of_scalar {d : Datum} (h : d.shape? = some []) : d.leaves = [d] := by
  cases d with
  | list items =>
    cases items with
    | nil => cases h
    | cons d ds =>
      rw [shape?] at h
      cases hinner : d.shape? with
      | none => simp [hinner] at h
      | some inner => simp [hinner, shallow?] at h
  | _ => rfl

theorem length_allLeaves_of_scalars {ds : List Datum} (h : allShape [] ds = true) :
    (allLeaves ds).length = ds.length := by
  induction ds with
  | nil => rfl
  | cons d ds ih =>
    rw [allShape, Bool.and_eq_true, beq_iff_eq] at h
    rw [allLeaves, leaves_of_scalar h.1, List.length_append, ih h.2]
    exact Nat.add_comm ..

/-- A row has as many values as its shape says. -/
theorem length_leaves_of_row {d : Datum} {n : Nat} (h : d.shape? = some [n]) : d.leaves.length = n := by
  cases d with
  | list items =>
    cases items with
    | nil =>
      obtain rfl : 0 = n := by simpa [shape?] using h
      rfl
    | cons d ds =>
      rw [shape?] at h
      cases hinner : d.shape? with
      | none => simp [hinner] at h
      | some inner =>
        obtain ⟨hall, rfl, rfl⟩ : allShape inner ds = true ∧ ds.length + 1 = n ∧ inner = [] := by
          simp only [hinner, shallow?] at h
          split_ifs at h with hall hdepth
          simpa [hall] using h
        rw [leaves, allLeaves, leaves_of_scalar hinner, List.length_append, length_allLeaves_of_scalars hall]
        exact Nat.add_comm ..
  | _ => cases h

theorem truths?_eq_some {d : Datum} {shape : List Nat} {row : List Bool} (h : d.truths? = some (shape, row)) :
    d.hasNull = false ∧ d.shape? = some shape ∧ row = d.leaves.map isTrue := by
  unfold truths? at h
  split_ifs at h with hnull
  obtain ⟨shape', hshape, htable⟩ := Option.map_eq_some_iff.1 h
  cases htable
  exact ⟨by simpa using hnull, hshape, rfl⟩

end Datum

namespace Keypad

variable {d : Datum} {shape : List Nat} {row : List Bool}

/-- A keypad is made of a row of sixteen truth values, and of nothing else. -/
theorem ofDatum_of_truths? (h : d.truths? = some (shape, row)) :
    ofDatum d =
      if shape = [16] then .ok (Vector.ofFn fun k => row.getD k false) else .error (.keypadShape shape) := by
  obtain ⟨hnull, hshape, rfl⟩ := Datum.truths?_eq_some h
  have hget (k : Nat) : (d.leaves.getD k .null).isTrue = (d.leaves.map Datum.isTrue).getD k false :=
    (List.getD_map d.leaves .null Datum.isTrue).symm
  simp only [ofDatum, hnull, hshape, Bool.false_eq_true, if_false, hget]

theorem ofDatum_of_no_truths (h : d.truths? = none) : ∃ e, ofDatum d = .error e := by
  unfold Datum.truths? at h
  unfold ofDatum
  split_ifs at h ⊢ with hnull
  · exact ⟨_, rfl⟩
  · rw [Option.map_eq_none_iff.1 h]
    exact ⟨_, rfl⟩

theorem keyOfDatum_int (n : Int) :
    keyOfDatum (.int n) =
      if h : 0 ≤ n ∧ n < 16 then .ok ⟨n.toNat, by omega⟩ else .error (.keyOutOfRange (.int n)) := by
  simp only [keyOfDatum]
  split_ifs with hneg hkey hkey
  · omega
  · rfl
  · obtain ⟨k, rfl⟩ := Int.eq_ofNat_of_zero_le hkey.1
    rw [Place.cell?_ofNat (by omega)]
    rfl
  · simp [Place.cell?, hneg, hkey]

/-- Only an integer names a key. -/
theorem exists_int_of_keyOfDatum {k : Fin 16} (h : keyOfDatum d = .ok k) : d = .int k := by
  cases d with
  | int n =>
    rw [keyOfDatum_int] at h
    split_ifs at h with hkey
    obtain rfl := Except.ok.inj h
    rw [Int.toNat_of_nonneg hkey.1]
  | real x =>
    simp only [keyOfDatum] at h
    split_ifs at h
  | _ => cases h

end Keypad

/-! ## What the machine does to its keypad -/

namespace State

theorem step_keypad (s : State) : s.step.keypad = s.keypad := by
  by_cases hr : s.Running
  · exact (step_confined hr).keypad
  · rcases step_of_still hr with h | ⟨k, h⟩
    · rw [h]
    · rw [h]
      rfl

theorem run_keypad (n : Nat) (s : State) : (run n s).keypad = s.keypad := run_keeps step_keypad n s

end State

namespace Machine

open State

instance : DecidablePred Operation.Restarts
  | .reset | .load _ => .isTrue trivial
  | .step | .tick | .frame | .press _ | .release _ | .setKeys _ | .dump => .isFalse id

/-- The operations by which a driver moves keys. -/
def Operation.MovesKeys : Operation → Prop
  | press _ | release _ | setKeys _ => True
  | _ => False

variable {s : State} {op : Operation} (frameLength : Except Error Nat)

theorem act_keypad_of_restart (h : op.Restarts) : (act frameLength s op).state.keypad = Keypad.released := by
  cases op with
  | reset => rfl
  | load p =>
    obtain ⟨memory, hload⟩ := load_restarts s p
    simp only [act, hload]
    rfl
  | _ => cases h

/-- A machine does not move its keys by itself. -/
theorem act_keypad_of_other (hr : ¬ op.Restarts) (hk : ¬ op.MovesKeys) :
    (act frameLength s op).state.keypad = s.keypad := by
  cases op with
  | step =>
    simp only [act]
    cases s.refusal? with
    | some e => rfl
    | none =>
      rw [settle_state]
      exact step_keypad s
  | frame =>
    simp only [act]
    cases s.refusal? with
    | some e => rfl
    | none =>
      cases frameLength with
      | error e => rfl
      | ok n =>
        rw [settle_state]
        exact run_keypad n s
  | tick | dump => rfl
  | reset | load => exact absurd trivial hr
  | press | release | setKeys => exact absurd trivial hk

/-! ## What the driver does to it -/

/-- The position that the operation gives a key if it succeeds, if it is about the key. -/
def Operation.gives? (k : Fin 16) : Operation → Option Bool
  | press (.int n) => if n = k.val then some true else none
  | release (.int n) => if n = k.val then some false else none
  | setKeys d => d.truths?.bind fun table => table.2[k.val]?
  | _ => none

/-- An operation that moves keys puts those where it says that it is about, and is silent about it, or is refused. -/
theorem act_of_movesKeys (s : State) (h : op.MovesKeys) :
    (∃ keypad : Keypad, act frameLength s op = .quiet { s with keypad } .done ∧
      ∀ k, keypad.isDown k = (op.gives? k).getD (s.keypad.isDown k)) ∨
    ∃ e, act frameLength s op = .refused s e := by
  cases op with
  | press key | release key =>
    simp only [act, setKey]
    cases hkey : Keypad.keyOfDatum key with
    | error e => exact .inr ⟨e, rfl⟩
    | ok i =>
      obtain rfl := Keypad.exists_int_of_keyOfDatum hkey
      refine .inl ⟨_, rfl, fun k => ?_⟩
      simp only [Operation.gives?, Keypad.isDown_put, Int.natCast_inj, Fin.val_inj, eq_comm]
      split_ifs <;> rfl
  | setKeys d =>
    simp only [act]
    cases htable : d.truths? with
    | none =>
      obtain ⟨e, he⟩ := Keypad.ofDatum_of_no_truths htable
      rw [he]
      exact .inr ⟨e, rfl⟩
    | some table =>
      obtain ⟨shape, row⟩ := table
      rw [Keypad.ofDatum_of_truths? htable]
      split_ifs with hrow
      · refine .inl ⟨_, rfl, fun k => ?_⟩
        obtain ⟨-, hshape, rfl⟩ := Datum.truths?_eq_some htable
        have hlt : k.val < d.leaves.length := by
          rw [Datum.length_leaves_of_row (hrow ▸ hshape)]
          exact k.isLt
        simp [Operation.gives?, htable, Keypad.isDown, hlt]
      · exact .inr ⟨_, rfl⟩
  | _ => cases h

/-- Since the machine has nothing to say, its answer is heard whatever the log does. -/
theorem perform_of_movesKeys (h : op.MovesKeys) (m : Machine) :
    m.perform op =
      ({ m with state := (act m.frameLength m.state op).state }, (act m.frameLength m.state op).reply, []) := by
  rcases act_of_movesKeys m.frameLength m.state h with ⟨keypad, hact, -⟩ | ⟨e, hact⟩ <;> rw [perform, hact] <;> rfl

theorem act_of_refused (h : op.MovesKeys) {e : Error} (he : (act frameLength s op).reply = .error e) :
    (act frameLength s op).state = s := by
  rcases act_of_movesKeys frameLength s h with ⟨keypad, hact, -⟩ | ⟨e, hact⟩
  · rw [hact] at he
    cases he
  · rw [hact]
    rfl

/-! ## Histories -/

/-- What an operation that was answered in this way has made of a key. -/
def given? (k : Fin 16) (entry : Operation × Except Error Reply) : Option Bool :=
  match entry.1.gives? k, entry.2 with
  | some down, .ok _ => some down
  | _, _ => none

/-- The position that a key was last given since the last reset or load; up if it was given none. -/
def lastGiven (k : Fin 16) (history : List (Operation × Except Error Reply)) : Bool :=
  ((history.reverse.takeWhile fun entry => !decide entry.1.Restarts).findSome? (given? k)).getD false

/-- Operations on a machine, each with the answer to it. -/
def answered (m : Machine) : List Operation → List (Operation × Except Error Reply)
  | [] => []
  | op :: ops => (op, (m.perform op).2.1) :: (m.perform op).1.answered ops

theorem given?_ok (k : Fin 16) (op : Operation) (r : Reply) : given? k (op, .ok r) = op.gives? k := by
  unfold given?
  cases op.gives? k <;> rfl

theorem given?_error (k : Fin 16) (op : Operation) (e : Error) : given? k (op, .error e) = none := by
  unfold given?
  cases op.gives? k <;> rfl

variable {m : Machine} {k : Fin 16} {history : List (Operation × Except Error Reply)}

theorem lastGiven_of_restart (h : op.Restarts) (answer : Except Error Reply) :
    lastGiven k (history ++ [(op, answer)]) = false := by
  simp [lastGiven, h]

theorem lastGiven_concat (h : ¬ op.Restarts) (answer : Except Error Reply) :
    lastGiven k (history ++ [(op, answer)]) = (given? k (op, answer)).getD (lastGiven k history) := by
  unfold lastGiven
  rw [List.reverse_append, List.reverse_singleton, List.singleton_append, List.takeWhile_cons_of_pos (by simp [h]),
    List.findSome?_cons]
  cases given? k (op, answer) <;> rfl

theorem isDown_of_movesKeys (h : op.MovesKeys) (m : Machine) (k : Fin 16) :
    (m.perform op).1.state.keypad.isDown k = (given? k (op, (m.perform op).2.1)).getD (m.state.keypad.isDown k) := by
  rw [perform_of_movesKeys h]
  rcases act_of_movesKeys m.frameLength m.state h with ⟨keypad, hact, hgives⟩ | ⟨e, hact⟩
  · simp only [hact, Effect.quiet, given?_ok, hgives]
  · simp only [hact, Effect.refused, given?_error, Option.getD_none]

/-- One operation: what the history says of a key goes on being true. -/
theorem isDown_perform (h : m.state.keypad.isDown k = lastGiven k history) (op : Operation) :
    (m.perform op).1.state.keypad.isDown k = lastGiven k (history ++ [(op, (m.perform op).2.1)]) := by
  by_cases hr : op.Restarts
  · have hreleased : (m.perform op).1.state.keypad = Keypad.released := act_keypad_of_restart m.frameLength hr
    rw [lastGiven_of_restart hr, hreleased]
    exact Place.get_replicate false k
  · rw [lastGiven_concat hr, ← h]
    by_cases hk : op.MovesKeys
    · exact isDown_of_movesKeys hk m k
    · have hsame : (m.perform op).1.state.keypad = m.state.keypad := act_keypad_of_other m.frameLength hr hk
      have hnone : given? k (op, (m.perform op).2.1) = none := by
        cases op with
        | press | release | setKeys => exact absurd trivial hk
        | _ => rfl
      rw [hsame, hnone]
      rfl

theorem isDown_performAll (h : m.state.keypad.isDown k = lastGiven k history) (ops : List Operation) :
    (m.performAll ops).state.keypad.isDown k = lastGiven k (history ++ m.answered ops) := by
  induction ops generalizing m history with
  | nil =>
    rw [answered, List.append_nil]
    exact h
  | cons op ops ih =>
    rw [answered, List.append_cons]
    exact ih (isDown_perform h op)

/-- After any operations with a machine from its making on, each key is where the last press or release of it, or the
last snapshot, among those that succeeded has put it since the last reset or load, and up if there was none. A step, a
tick, a frame and a dump move no key. A press and a release of an integer, and a snapshot that stands for a table of
truth values, succeed if and only if the integer is that of a key and the table is a row of sixteen, and are
otherwise refused with the integer or the shape; a snapshot that stands for no table is refused; and where any of the
three is refused, the machine is as before. -/
theorem keys_as_last_given {c : Settings} {terminal : Bool} {clock : Log.Clock} {m : Machine} {lines : List String}
    (h : create c terminal clock = .ok (m, lines)) (ops : List Operation) :
    let now := m.performAll ops
    (∀ k, now.state.keypad.isDown k = lastGiven k (m.answered ops)) ∧
    (∀ op, ¬ op.Restarts → ¬ op.MovesKeys → (now.perform op).1.state.keypad = now.state.keypad) ∧
    (∀ n : Int, ∀ op ∈ [Operation.press (.int n), .release (.int n)],
      (now.perform op).2.1 = if 0 ≤ n ∧ n < 16 then .ok .done else .error (.keyOutOfRange (.int n))) ∧
    (∀ d shape row, d.truths? = some (shape, row) →
      (now.perform (.setKeys d)).2.1 = if shape = [16] then .ok .done else .error (.keypadShape shape)) ∧
    (∀ d, d.truths? = none → ∃ e, (now.perform (.setKeys d)).2.1 = .error e) ∧
    ∀ op e, op.MovesKeys → (now.perform op).2.1 = .error e → (now.perform op).1 = now := by
  intro now
  obtain ⟨key, hstate⟩ := create_state h
  refine ⟨fun k => ?_, fun op hr hk => act_keypad_of_other now.frameLength hr hk, fun n op hop => ?_,
    fun d shape row htable => ?_, fun d hnone => ?_, fun op e hop he => ?_⟩
  · -- a new machine has all its keys up
    have hnew : m.state.keypad.isDown k = lastGiven k [] := by
      rw [hstate]
      exact Place.get_replicate false k
    exact isDown_performAll hnew ops
  · have hmoves : op.MovesKeys := by
      rcases List.mem_pair.1 hop with rfl | rfl <;> trivial
    rw [perform_of_movesKeys hmoves]
    rcases List.mem_pair.1 hop with rfl | rfl <;>
    · simp only [act, setKey, Keypad.keyOfDatum_int]
      split_ifs <;> rfl
  · have hmoves : (Operation.setKeys d).MovesKeys := trivial
    rw [perform_of_movesKeys hmoves]
    simp only [act, Keypad.ofDatum_of_truths? htable]
    split_ifs <;> rfl
  · have hmoves : (Operation.setKeys d).MovesKeys := trivial
    obtain ⟨e, he⟩ := Keypad.ofDatum_of_no_truths hnone
    rw [perform_of_movesKeys hmoves]
    exact ⟨e, by simp only [act, he, Effect.refused]⟩
  · rw [perform_of_movesKeys hop] at he ⊢
    rw [act_of_refused now.frameLength hop he]

/-- A snapshot with the keys 5 and C down. -/
def chord : Datum := .list ((List.range 16).map fun k => .bool (k == 5 || k == 12))

/-- Keys moved before a load and after it, singly and all at once, also keys that are none. -/
def keystrokes : List Operation :=
  [.press (.int 3), .load waiter, .press (.int 9), .step, .setKeys chord, .frame, .release (.int 5), .press (.int 16),
    .setKeys (.list [.bool true]), .setKeys .null, .dump, .press (.int 7), .tick]

/-- In the end the keys 7 and C are down: the load has released 3, the snapshot 9, and the driver 5. -/
theorem keys_as_last_given_of_keystrokes :
    ∃ m lines, create (ofSeed 1) false (.ofReadings [.fraction 0.5]) = .ok (m, lines) ∧
      (∀ k, (m.performAll keystrokes).state.keypad.isDown k = decide (k.val = 7 ∨ k.val = 12)) ∧
      ((m.performAll keystrokes).perform (.press (.int 16))).2.1 = .error (.keyOutOfRange (.int 16)) := by
  have h := create_silent (ofSeed 1) false (.ofReadings [.fraction 0.5]) (k := ⟨0, 1⟩) rfl (by decide +kernel)
  obtain ⟨hkeys, -, hkey, -⟩ := keys_as_last_given h keystrokes
  refine ⟨_, _, h, fun k => ?_, hkey 16 (.press (.int 16)) (by simp)⟩
  rw [hkeys k]
  revert k
  decide +kernel

end Machine

end Chip8
