/-
Only the low twelve bits of an address count. Two states are aliases if they agree in everything,
except that the program counter, the index register and the slots of the call stack of the one need
only name the same cells of memory as those of the other. Every instruction, and so every signal, takes
aliases to aliases; and a machine whose high address bits change in any way after each signal shows
the same registers, memory, screen and timers, stops and waits at the same places, and draws the
same random numbers as one whose bits do not.
-/
import Chip8.Proofs.Signal

namespace Chip8

/-! ## Addresses -/

/-- Two addresses name the same cell of memory. -/
def SameCell (a b : UInt16) : Prop := a.toNat % 4096 = b.toNat % 4096

namespace SameCell

variable {a b : UInt16}

theorem refl (a : UInt16) : SameCell a a := rfl

/-- The wrap at 65536 does not disturb the low bits. -/
theorem add (h : SameCell a b) (d : UInt16) : SameCell (a + d) (b + d) := by
  unfold SameCell at h ⊢
  rw [UInt16.toNat_add, UInt16.toNat_add]
  omega

theorem sub (h : SameCell a b) (d : UInt16) : SameCell (a - d) (b - d) := by
  unfold SameCell at h ⊢
  rw [UInt16.toNat_sub, UInt16.toNat_sub]
  have hd := d.toNat_lt
  omega

end SameCell

namespace Memory

theorem read_congr (m : Memory) {a c : Nat} (h : a % 4096 = c % 4096) : m.read a = m.read c := by
  simp only [read, h]

theorem write_congr (m : Memory) {a c : Nat} (h : a % 4096 = c % 4096) (b : UInt8) : m.write a b = m.write c b := by
  simp only [write, h]

theorem writeAll_congr (m : Memory) {a c : Nat} (h : a % 4096 = c % 4096) (bs : List UInt8) :
    m.writeAll a bs = m.writeAll c bs := by
  induction bs generalizing m a c with
  | nil => rfl
  | cons b bs ih =>
    rw [writeAll_cons, writeAll_cons, write_congr m h]
    exact ih _ (by omega)

end Memory

/-! ## Stacks -/

namespace CallStack

/-- Two stacks are as high as each other, and their slots name the same cells. -/
structure Alias (s t : CallStack) : Prop where
  pointer : t.pointer = s.pointer
  slots : ∀ k, SameCell (s.slots.get k) (t.slots.get k)

theorem store_alias {v w : Vector UInt16 16} (h : ∀ k, SameCell (v.get k) (w.get k)) (place : Int)
    {a b : UInt16} (hab : SameCell a b) (k : Fin 16) :
    SameCell ((store v place a).get k) ((store w place b).get k) := by
  unfold store
  cases Place.cell? 16 place with
  | none => exact h k
  | some i =>
    by_cases hk : k = i
    · subst hk
      simpa using hab
    · simp only [Place.get_put_of_ne _ _ hk]
      exact h k

/-- Both stacks refuse the push, or take it and stay aliases. -/
theorem Alias.push {s t : CallStack} (h : Alias s t) {a b : UInt16} (hab : SameCell a b) :
    s.push? a = none ∧ t.push? b = none ∨
      ∃ s' t', s.push? a = some s' ∧ t.push? b = some t' ∧ Alias s' t' := by
  unfold push?
  rw [h.pointer]
  split
  · exact .inl ⟨rfl, rfl⟩
  · exact .inr ⟨_, _, rfl, rfl, rfl, store_alias h.slots s.pointer hab⟩

/-- Both stacks refuse the pop, or give addresses of the same cell and stay aliases. -/
theorem Alias.pop {s t : CallStack} (h : Alias s t) :
    s.pop? = none ∧ t.pop? = none ∨
      ∃ s' t' a b, s.pop? = some (s', a) ∧ t.pop? = some (t', b) ∧ Alias s' t' ∧ SameCell a b := by
  unfold pop?
  rw [h.pointer]
  split
  · exact .inl ⟨rfl, rfl⟩
  · exact .inr ⟨_, _, _, _, rfl, rfl, ⟨rfl, store_alias h.slots _ (.refl 0)⟩, h.slots _⟩

end CallStack

/-! ## States -/

namespace State

/-- Two states that differ at most in the high bits of their addresses. -/
structure Alias (s t : State) : Prop where
  dialect : t.dialect = s.dialect
  randomKey : t.randomKey = s.randomKey
  memory : t.memory = s.memory
  pc : SameCell s.pc t.pc
  screen : t.screen = s.screen
  stack : CallStack.Alias s.stack t.stack
  delay : t.delay = s.delay
  sound : t.sound = s.sound
  keypad : t.keypad = s.keypad
  registers : t.registers = s.registers
  index : SameCell s.index t.index
  waiting : t.waiting = s.waiting
  keyRegister : t.keyRegister = s.keyRegister
  fault : t.fault = s.fault

/-- The state with other addresses. -/
def readdress (s : State) (pc index : UInt16) (stack : CallStack) : State := { s with pc, index, stack }

theorem alias_readdress {s : State} {p i : UInt16} {k : CallStack} (hp : SameCell s.pc p) (hi : SameCell s.index i)
    (hk : CallStack.Alias s.stack k) : Alias s (s.readdress p i k) :=
  ⟨rfl, rfl, rfl, hp, rfl, hk, rfl, rfl, rfl, rfl, hi, rfl, rfl, rfl⟩

/-- An alias of a state is that state with other addresses. -/
theorem Alias.exists_readdress {s t : State} (h : Alias s t) :
    ∃ p i k, SameCell s.pc p ∧ SameCell s.index i ∧ CallStack.Alias s.stack k ∧ t = s.readdress p i k := by
  refine ⟨t.pc, t.index, t.stack, h.pc, h.index, h.stack, ?_⟩
  obtain ⟨h1, h2, h3, -, h4, -, h5, h6, h7, h8, -, h9, h10, h11⟩ := h
  cases t
  simp only at h1 h2 h3 h4 h5 h6 h7 h8 h9 h10 h11
  subst h1 h2 h3 h4 h5 h6 h7 h8 h9 h10 h11
  rfl

/-! ## What the machine does with addresses -/

section

variable {s : State} {p i : UInt16} {k : CallStack} (hp : SameCell s.pc p) (hi : SameCell s.index i)
  (hk : CallStack.Alias s.stack k)

include hp in
theorem peek_readdress : (s.readdress p i k).peek = s.peek := by
  have h0 : s.memory.read p.toNat = s.memory.read s.pc.toNat := s.memory.read_congr hp.symm
  have h1 : s.memory.read (p.toNat + 1) = s.memory.read (s.pc.toNat + 1) :=
    s.memory.read_congr (by unfold SameCell at hp; omega)
  unfold peek
  exact congrArg₂ Opcode.ofBytes h0 h1

include hi in
theorem read_index (n : Nat) : s.memory.read (i.toNat + n) = s.memory.read (s.index.toNat + n) :=
  s.memory.read_congr (by unfold SameCell at hi; omega)

include hi in
theorem spriteBytes_readdress : (s.readdress p i k).spriteBytes = s.spriteBytes := by
  unfold spriteBytes
  exact List.map_congr_left fun j _ => read_index hi j

include hi in
theorem indexAfter_readdress (x : Fin 16) : SameCell (s.indexAfter x) ((s.readdress p i k).indexAfter x) := by
  unfold indexAfter
  cases h : s.dialect.indexAdvances with
  | true => simpa [readdress, h] using hi.add _
  | false => simpa [readdress, h] using hi

include hp hi hk

theorem stop_readdress (f : Fault) : Alias (s.stop f) ((s.readdress p i k).stop f) :=
  alias_readdress (hp.sub 2) hi hk

theorem skip_readdress (c : Bool) : Alias (s.skip c) ((s.readdress p i k).skip c) := by
  cases c
  · exact alias_readdress hp hi hk
  · exact alias_readdress (hp.add 2) hi hk

theorem call_readdress (a : UInt16) : Alias (s.call a) ((s.readdress p i k).call a) := by
  unfold call
  rcases hk.push hp with ⟨hs, ht⟩ | ⟨s', t', hs, ht, h⟩
  · simp only [readdress, hs, ht]
    exact stop_readdress hp hi hk _
  · simp only [readdress, hs, ht]
    exact alias_readdress (.refl a) hi h

theorem leave_readdress : Alias s.leave (s.readdress p i k).leave := by
  unfold leave
  rcases hk.pop with ⟨hs, ht⟩ | ⟨s', t', a, b, hs, ht, h, hab⟩
  · simp only [readdress, hs, ht]
    exact stop_readdress hp hi hk _
  · simp only [readdress, hs, ht]
    exact alias_readdress hab hi h

theorem alu_readdress (op : AluOp) (x y : Fin 16) : Alias (s.alu op x y) ((s.readdress p i k).alu op x y) := by
  unfold alu
  simp only [readdress, v]
  rcases op.apply s.dialect (s.registers.read x) (s.registers.read y) with ⟨r, _ | f⟩ <;>
    exact alias_readdress hp hi hk

theorem draw_readdress (x y n : Fin 16) : Alias (s.draw x y n) ((s.readdress p i k).draw x y n) := by
  unfold draw
  rw [spriteBytes_readdress hi]
  simp only [readdress, v]
  rcases s.screen.draw s.spriteBytes (s.registers.read x).toNat (s.registers.read y).toNat n.val with ⟨screen, c⟩
  exact alias_readdress hp hi hk

theorem awaitKey_readdress (x : Fin 16) : Alias (s.awaitKey x) ((s.readdress p i k).awaitKey x) := by
  unfold awaitKey
  simp only [readdress]
  cases s.keypad.lowest? with
  | some key => exact alias_readdress hp hi hk
  | none => exact alias_readdress (hp.sub 2) hi hk

theorem storeDecimal_readdress (x : Fin 16) :
    Alias (s.execute (.storeDecimal x)) ((s.readdress p i k).execute (.storeDecimal x)) := by
  simp only [State.execute, readdress, v]
  rw [← s.memory.writeAll_congr hi]
  exact alias_readdress hp hi hk

theorem storeRegisters_readdress (x : Fin 16) : Alias (s.storeRegisters x) ((s.readdress p i k).storeRegisters x) := by
  have ha : SameCell (s.indexAfter x) ((s.readdress p i k).indexAfter x) := indexAfter_readdress hi x
  unfold storeRegisters storeWindow
  simp only [readdress, v, read_index hi] at ha ⊢
  rw [← s.memory.writeAll_congr hi]
  exact alias_readdress hp ha hk

theorem loadRegisters_readdress (x : Fin 16) : Alias (s.loadRegisters x) ((s.readdress p i k).loadRegisters x) := by
  have ha : SameCell (s.indexAfter x) ((s.readdress p i k).indexAfter x) := indexAfter_readdress hi x
  unfold loadRegisters
  simp only [readdress, v, read_index hi] at ha ⊢
  exact alias_readdress hp ha hk

end

/-- Every instruction takes aliases to aliases. -/
theorem Alias.execute {s t : State} (h : Alias s t) (c : Instruction) : Alias (s.execute c) (t.execute c) := by
  obtain ⟨p, i, k, hp, hi, hk, rfl⟩ := h.exists_readdress
  cases c with
  | call a => exact call_readdress hp hi hk a
  | leave => exact leave_readdress hp hi hk
  | alu op x y => exact alu_readdress hp hi hk op x y
  | draw x y n => exact draw_readdress hp hi hk x y n
  | awaitKey x => exact awaitKey_readdress hp hi hk x
  | storeDecimal x => exact storeDecimal_readdress hp hi hk x
  | storeRegisters x => exact storeRegisters_readdress hp hi hk x
  | loadRegisters x => exact loadRegisters_readdress hp hi hk x
  | skipIfByte | skipUnlessByte | skipIfSame | skipUnlessSame | skipIfKey | skipUnlessKey =>
    exact skip_readdress hp hi hk _
  -- these addresses come from the opcode and the registers alone
  | jump | jumpOffset => exact alias_readdress (.refl _) hi hk
  | setIndex | pointGlyph => exact alias_readdress hp (.refl _) hk
  | addIndex x => exact alias_readdress hp (hi.add _) hk
  -- and these instructions do not look at an address
  | nothing | clearScreen | setByte | addByte | random | readDelay | setDelay | setSound =>
    exact alias_readdress hp hi hk

theorem Alias.cycle {s t : State} (h : Alias s t) : Alias s.cycle t.cycle := by
  have ha : Alias s.advance t.advance := { h with pc := h.pc.add 2 }
  -- both fetch the same opcode, so one instruction is executed on both sides
  have hpeek : t.peek = s.peek := by
    obtain ⟨p, i, k, hp, hi, hk, rfl⟩ := h.exists_readdress
    exact peek_readdress hp
  unfold State.cycle
  rw [hpeek]
  exact ha.execute _

theorem Alias.pollKey {s t : State} (h : Alias s t) : Alias s.pollKey t.pollKey := by
  obtain ⟨p, i, k, hp, hi, hk, rfl⟩ := h.exists_readdress
  unfold State.pollKey
  simp only [readdress]
  cases s.keypad.lowest? with
  | none => exact h
  | some key => exact alias_readdress (hp.add 2) hi hk

/-- A step takes aliases to aliases. -/
theorem Alias.step {s t : State} (h : Alias s t) : Alias s.step t.step := by
  unfold State.step
  rw [h.fault, h.waiting]
  split
  · exact h
  · split
    · exact h.pollKey
    · exact h.cycle

theorem Alias.tick {s t : State} (h : Alias s t) : Alias s.tick t.tick := by
  obtain ⟨p, i, k, hp, hi, hk, rfl⟩ := h.exists_readdress
  exact alias_readdress hp hi hk

theorem Alias.setKeys {s t : State} (h : Alias s t) (keypad : Keypad) : Alias (s.setKeys keypad) (t.setKeys keypad) :=
  { h with keypad := rfl }

theorem Alias.receive {s t : State} (h : Alias s t) (e : Signal) : Alias (s.receive e) (t.receive e) := by
  cases e with
  | step => exact h.step
  | tick => exact h.tick
  | keys keypad => exact h.setKeys keypad

/-! ## Runs -/

/-- The signals `es` take a machine from one state to another, while the high bits of all its addresses
change in any way after each signal. -/
inductive Strays : State → List Signal → State → Prop where
  | nil (s : State) : Strays s [] s
  | cons {s t u : State} {e : Signal} {es : List Signal} (h : Alias (s.receive e) t) (hr : Strays t es u) :
    Strays s (e :: es) u

theorem Alias.trans {s t u : State} (h : Alias s t) (h' : Alias t u) : Alias s u where
  dialect := h'.dialect.trans h.dialect
  randomKey := h'.randomKey.trans h.randomKey
  memory := h'.memory.trans h.memory
  pc := h.pc.trans h'.pc
  screen := h'.screen.trans h.screen
  stack := ⟨h'.stack.pointer.trans h.stack.pointer, fun k => (h.stack.slots k).trans (h'.stack.slots k)⟩
  delay := h'.delay.trans h.delay
  sound := h'.sound.trans h.sound
  keypad := h'.keypad.trans h.keypad
  registers := h'.registers.trans h.registers
  index := h.index.trans h'.index
  waiting := h'.waiting.trans h.waiting
  keyRegister := h'.keyRegister.trans h.keyRegister
  fault := h'.fault.trans h.fault

theorem Alias.play {s t u : State} {es : List Signal} (h : Alias s t) (hr : Strays t es u) : Alias (s.play es) u := by
  induction hr generalizing s with
  | nil => exact h
  | cons h' _ ih => exact ih ((h.receive _).trans h')

/-- A machine that does to each state what this one does, up to high address bits, strays. -/
theorem strays_foldl {other : State → Signal → State} (h : ∀ s e, Alias (s.receive e) (other s e)) (s : State)
    (es : List Signal) : Strays s es (es.foldl other s) := by
  induction es generalizing s with
  | nil => exact .nil s
  | cons e es ih => exact .cons (h s e) (ih _)

/-- The state with the high bits of all addresses dropped. -/
def truncated (s : State) : State :=
  s.readdress (s.pc % 4096) (s.index % 4096) ⟨s.stack.slots.map (· % 4096), s.stack.pointer⟩

theorem alias_truncated (s : State) : Alias s s.truncated := by
  have h : ∀ a : UInt16, SameCell a (a % 4096) := by
    intro a
    simp [SameCell]
  refine alias_readdress (h _) (h _) ⟨rfl, fun k => ?_⟩
  rw [Place.get_eq_getElem, Place.get_eq_getElem, Vector.getElem_map]
  exact h _

/-- Only the low twelve bits of addresses can be observed. Aliases stay aliases under every signal, and
over a run of any length they show the same, even if the high address bits of one of them change in
any way after each signal. -/
theorem high_address_bits_hidden {s t : State} (h : Alias s t) :
    Alias s.step t.step ∧ Alias s.tick t.tick ∧ (∀ keypad, Alias (s.setKeys keypad) (t.setKeys keypad)) ∧
    ∀ (es : List Signal) (u : State), Strays t es u →
      Alias (s.play es) u ∧ u.registers = (s.play es).registers ∧ u.memory = (s.play es).memory ∧
      u.screen = (s.play es).screen ∧ u.delay = (s.play es).delay ∧ u.sound = (s.play es).sound ∧
      u.fault = (s.play es).fault ∧ u.waiting = (s.play es).waiting ∧
      u.keyRegister = (s.play es).keyRegister ∧ u.randomKey = (s.play es).randomKey := by
  refine ⟨h.step, h.tick, h.setKeys, fun es u hr => ?_⟩
  have hu := h.play hr
  exact ⟨hu, hu.registers, hu.memory, hu.screen, hu.delay, hu.sound, hu.fault, hu.waiting, hu.keyRegister,
    hu.randomKey⟩

/-- A machine whose program counter is about to wrap, beside one with addresses of twelve bits. -/
theorem high_address_bits_hidden_at_wrap :
    let s := { powerOn ⟨true, false, false, false⟩ ⟨0, 0⟩ with pc := 0xFFFE }
    let es := [Signal.step, .tick, .keys (Keypad.ofDown [7]), .step]
    let u := es.foldl (fun s e => (s.receive e).truncated) s.truncated
    s.pc ≠ s.truncated.pc ∧ u.memory = (s.play es).memory ∧ u.registers = (s.play es).registers := by
  intro s es u
  have hu : Strays s.truncated es u := strays_foldl (fun s e => alias_truncated (s.receive e)) s.truncated es
  obtain ⟨-, -, -, hrun⟩ := high_address_bits_hidden (alias_truncated s)
  obtain ⟨-, hv, hm, -⟩ := hrun es u hu
  exact ⟨by decide, hm, hv⟩

end State

end Chip8
