/-
Calls and returns match. From a call on, the machine is inside the subroutine as long as the stack
holds the addresses that were on it before the call, the address after the call, and possibly more.
No signal but the return from this very call leads out of it, and that return leads to the address
after the call, with the stack as it was before. So the first state after the call with the stack as
high as before it is the state behind that return, whatever happened in between.
-/
import Chip8.Proofs.Signal

namespace Chip8.State

/-- The machine runs a subroutine that will return to `a`; `below` are the addresses under it. -/
def Inside (below : List UInt16) (a : UInt16) (s : State) : Prop :=
  ∃ above : List UInt16, (below ++ a :: above).length ≤ 16 ∧ s.stack = .ofList (below ++ a :: above)

theorem Inside.of_stack {below : List UInt16} {a : UInt16} {s t : State} (h : Inside below a s)
    (ht : t.stack = s.stack) : Inside below a t := by
  obtain ⟨above, hl, hs⟩ := h
  exact ⟨above, hl, ht.trans hs⟩

theorem Inside.pointer_ne {below : List UInt16} {a : UInt16} {s : State} (h : Inside below a s) :
    s.stack.pointer ≠ below.length := by
  obtain ⟨above, -, hs⟩ := h
  rw [hs, CallStack.pointer_ofList]
  simp only [List.length_append, List.length_cons]
  omega

/-- The machine has just returned to `a`, with the addresses `below` on the stack. -/
structure Back (below : List UInt16) (a : UInt16) (s : State) : Prop where
  pc : s.pc = a
  stack : s.stack = .ofList below

theorem inside_called {below : List UInt16} {a b : UInt16} {s : State} {stack : CallStack} (h : Inside below a s)
    (hp : s.stack.push? s.pc = some stack) : Inside below a { s with stack, pc := b } := by
  obtain ⟨above, hl, hs⟩ := h
  by_cases hlt : (below ++ a :: above).length < 16
  · rw [hs, CallStack.push?_ofList hlt] at hp
    obtain rfl := Option.some.inj hp
    refine ⟨above ++ [s.pc], ?_, by simp⟩
    simp only [List.length_append, List.length_cons, List.length_nil] at hlt ⊢
    omega
  · rw [CallStack.push?_eq_none_iff.2 (by rw [hs, CallStack.pointer_ofList]; omega)] at hp
    cases hp

/-- A return goes to the latest address, which is `a` only if nothing lies above it. -/
theorem inside_returned {below : List UInt16} {a b : UInt16} {s : State} {stack : CallStack} (h : Inside below a s)
    (hp : s.stack.pop? = some (stack, b)) :
    Inside below a { s with stack, pc := b } ∨ Back below a { s with stack, pc := b } := by
  obtain ⟨above, hl, hs⟩ := h
  rcases List.eq_nil_or_concat above with rfl | ⟨above, c, rfl⟩
  · have hlt : below.length < 16 := by simp at hl; omega
    rw [hs, CallStack.pop?_ofList_concat hlt] at hp
    obtain ⟨rfl, rfl⟩ := Prod.mk.inj (Option.some.inj hp)
    exact .inr ⟨rfl, rfl⟩
  · -- the call to return from is one made inside the subroutine
    have hlt : (below ++ a :: above).length < 16 := by simp at hl ⊢; omega
    rw [hs, show below ++ a :: above.concat c = (below ++ a :: above) ++ [c] by simp,
      CallStack.pop?_ofList_concat hlt] at hp
    obtain ⟨rfl, rfl⟩ := Prod.mk.inj (Option.some.inj hp)
    exact .inl ⟨above, Nat.le_of_lt hlt, rfl⟩

/-- A step inside a subroutine stays inside it or is its return. -/
theorem step_inside {below : List UInt16} {a : UInt16} {s : State} (h : Inside below a s) :
    Inside below a s.step ∨ (s.Running ∧ s.peek.word = 0x00EE ∧ Back below a s.step) := by
  have hstep := step_stepped s
  generalize s.step = t at hstep ⊢
  cases hstep with
  | stopped | idle | resumed => exact .inl (h.of_stack rfl)
  | executed hr hi ho =>
    cases ho with
    | plain _ _ _ hc => exact .inl (h.of_stack hc.stack)
    | called hp => exact .inl (inside_called (s := s.advance) h hp)
    | overflow | underflow | pressed | wait => exact .inl (h.of_stack rfl)
    | returned hp =>
      rcases inside_returned (s := s.advance) h hp with hin | hback
      · exact .inl hin
      · exact .inr ⟨hr, Instruction.encodes_of_decode hi nofun, hback⟩

/-- Only a step leads out of a subroutine. -/
theorem receive_inside {below : List UInt16} {a : UInt16} {s : State} (h : Inside below a s) (e : Signal) :
    Inside below a (s.receive e) ∨
      (e = .step ∧ s.Running ∧ s.peek.word = 0x00EE ∧ Back below a (s.receive e)) := by
  cases e with
  | step => exact (step_inside h).imp_right fun h => ⟨rfl, h⟩
  | tick | keys => exact .inl (h.of_stack rfl)

/-- While the stack does not come down to its height before the call, the machine stays inside. -/
theorem play_inside {below : List UInt16} {a : UInt16} {s : State} (h : Inside below a s) (es : List Signal)
    (hne : ∀ n ≤ es.length, (s.play (es.take n)).stack.pointer ≠ below.length) : Inside below a (s.play es) := by
  induction es generalizing s with
  | nil => exact h
  | cons e es ih =>
    rcases receive_inside h e with hin | ⟨-, -, -, hback⟩
    · exact ih hin fun n hn => hne (n + 1) (by simpa using hn)
    · -- behind the return the stack is down, after the first signal already
      refine absurd ?_ (hne 1 (by simp))
      simp [hback.stack]

theorem call_inside {below : List UInt16} {s : State} (hl : below.length < 16) (hs : s.stack = .ofList below)
    (hr : s.Running) (hcall : s.peek.family.val = 0x2) : Inside below (s.pc + 2) s.step := by
  have hpush : s.advance.stack.push? s.advance.pc = some (.ofList (below ++ [s.pc + 2])) := by
    rw [show s.advance.stack = .ofList below from hs]
    exact CallStack.push?_ofList hl _
  refine ⟨[], by simp; omega, ?_⟩
  rw [step_of_encodes hr (i := .call s.peek.address) ⟨hcall, rfl⟩]
  simp only [execute, call, hpush]

/-- Let a running machine be at a call, with room on its stack. Of the states after the call, the
first in which the stack is as high as before is the one that 00EE led to from a running machine. It
is at the instruction after the call, and its stack is that from before the call. -/
theorem return_matches_call {s : State} (hs : s.Reachable) (hr : s.Running) (hroom : s.stack.pointer < 16)
    (hcall : s.peek.family.val = 0x2) (es : List Signal)
    (hback : (s.play (.step :: es)).stack.pointer = s.stack.pointer)
    (hfirst : ∀ n < es.length, (s.play (.step :: es.take n)).stack.pointer ≠ s.stack.pointer) :
    (∃ es', es = es' ++ [.step] ∧ (s.play (.step :: es')).Running ∧
      (s.play (.step :: es')).peek.word = 0x00EE) ∧
    (s.play (.step :: es)).pc = s.pc + 2 ∧ (s.play (.step :: es)).stack = s.stack := by
  obtain ⟨below, -, hstack⟩ := hs.tidy.exists_ofList
  have hdepth : s.stack.pointer = below.length := by rw [hstack]; rfl
  have hin : Inside below (s.pc + 2) (s.receive .step) := call_inside (by omega) hstack hr hcall
  rw [hdepth] at hback hfirst
  simp only [play_cons] at hback hfirst ⊢
  rcases List.eq_nil_or_concat es with rfl | ⟨es, e, rfl⟩
  · exact absurd hback hin.pointer_ne
  · rw [List.concat_eq_append] at hback hfirst ⊢
    have hbefore : Inside below (s.pc + 2) ((s.receive .step).play es) := by
      refine play_inside hin es fun n hn => ?_
      have hne := hfirst n (by simp; omega)
      rwa [List.take_append_of_le_length hn] at hne
    rw [play_concat] at hback ⊢
    rcases receive_inside hbefore e with h | ⟨rfl, hr', hop, hb⟩
    · exact absurd hback h.pointer_ne
    · exact ⟨⟨es, rfl, hr', hop⟩, hb.pc, hb.stack.trans hstack.symm⟩

/-- A program that calls a subroutine, which calls a second one, which waits for a key. -/
def nestedCalls : Payload :=
  .bytes [0x22, 0x04, 0x00, 0x00, 0x22, 0x08, 0x00, 0xEE, 0xF3, 0x0A, 0x00, 0xEE]

/-- The machine at the first of the nested calls. -/
def atNestedCalls : State :=
  { powerOn ⟨false, false, false, false⟩ ⟨0, 0⟩ with
    memory := Memory.initial.writeAll Memory.programStart (nestedCalls.toBytes.toOption.getD []) }

/-- The signals from the first of the nested calls to its return. -/
def throughNestedCalls : List Signal :=
  [.step, .tick, .step, .step, .keys (Keypad.ofDown [4]), .step, .step, .step]

theorem return_matches_nested_call :
    (atNestedCalls.play (.step :: throughNestedCalls)).pc = 0x202 ∧
      (atNestedCalls.play (.step :: throughNestedCalls)).stack = CallStack.empty := by
  have hs : atNestedCalls.Reachable := .load (p := nestedCalls) (.powerOn _ _) rfl
  have hcall : atNestedCalls.peek.family.val = 0x2 := by decide +kernel
  obtain ⟨-, hpc, hstack⟩ := return_matches_call hs ⟨rfl, rfl⟩ (by decide) hcall throughNestedCalls
    (by decide +kernel) (by decide +kernel)
  exact ⟨hpc, hstack⟩

end Chip8.State
