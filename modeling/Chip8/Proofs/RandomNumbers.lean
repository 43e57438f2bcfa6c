/-
Random numbers. Each execution of CXNN takes one byte from the random key and puts the next key in its place;
nothing else that a program or a driver does touches the key, and a reset keeps it. So the bytes drawn in a
history are those of the first key, of the next, and so on, whatever happens between the draws.
-/
import Chip8.Proofs.History
import Chip8.Proofs.Writes
import Mathlib.Logic.Function.Iterate

namespace Chip8

namespace Happening

/-- An instruction CXNN was executed. -/
def isDraw : Happening → Bool
  | executed s => decide (s.peek.family.val = 0xC)
  | _ => false

def draws (history : List Happening) : Nat := history.countP isDraw

theorem draws_concat_of_draw (history : List Happening) {s : State} (h : s.peek.family.val = 0xC) :
    draws (history ++ [.executed s]) = draws history + 1 := by
  simp [draws, isDraw, h]

theorem draws_concat_of_other (history : List Happening) {e : Happening} (h : e.isDraw = false) :
    draws (history ++ [e]) = draws history := by
  simp [draws, h]

end Happening

namespace State

open Happening

variable {s : State} {k : RandomKey} {history : List Happening}

/-! ## One step -/

theorem step_of_draw (hr : s.Running) (h : s.peek.family.val = 0xC) :
    s.step.randomKey = s.randomKey.next ∧ s.step.v s.peek.x = s.randomKey.byte &&& s.peek.byte := by
  rw [step_of_encodes hr (i := .random s.peek.x s.peek.byte) ⟨h, rfl, rfl⟩]
  exact ⟨rfl, Registers.read_write_self ..⟩

theorem randomKey_step_of_other (hr : s.Running) (h : s.peek.family.val ≠ 0xC) : s.step.randomKey = s.randomKey :=
  not_imp_comm.1 (step_confined hr).randomKey fun ho => h (Opcode.oneOf_singleton.1 ho)

theorem randomKey_step_of_still (h : ¬ s.Running) : s.step.randomKey = s.randomKey := by
  rcases step_of_still h with hstep | ⟨k, hstep⟩
  · rw [hstep]
  · rw [hstep]
    rfl

/-! ## Over whole histories -/

/-- Each CXNN of a history has put into its register the byte of the key that belongs to its number. -/
def Drawn (k : RandomKey) (history : List Happening) : Prop :=
  ∀ earlier u later, history = earlier ++ .executed u :: later → u.peek.family.val = 0xC →
    u.step.v u.peek.x = (RandomKey.next^[draws earlier] k).byte &&& u.peek.byte

theorem Drawn.concat (h : Drawn k history) {e : Happening}
    (he : ∀ u, e = .executed u → u.peek.family.val = 0xC →
      u.step.v u.peek.x = (RandomKey.next^[draws history] k).byte &&& u.peek.byte) : Drawn k (history ++ [e]) := by
  intro earlier u later hsplit hdraw
  rcases List.eq_nil_or_concat later with rfl | ⟨later, e', rfl⟩
  · obtain ⟨rfl, hlast⟩ := List.append_inj' hsplit rfl
    exact he u (List.head_eq_of_cons_eq hlast) hdraw
  · -- the draw is one of those before the last happening
    rw [List.concat_eq_append, ← List.cons_append, ← List.append_assoc] at hsplit
    exact h earlier u later (List.append_inj' hsplit rfl).1 hdraw

/-- The key is as many keys further as numbers were drawn, and each of them was drawn from its own key. -/
structure Dealt (k : RandomKey) (s : State) (history : List Happening) : Prop where
  key : s.randomKey = RandomKey.next^[draws history] k
  drawn : Drawn k history

theorem Dealt.concat_of_other (h : Dealt k s history) {e : Happening} {t : State} (he : e.isDraw = false)
    (hkey : t.randomKey = s.randomKey) : Dealt k t (history ++ [e]) := by
  refine ⟨?_, h.drawn.concat ?_⟩
  · rw [hkey, h.key, draws_concat_of_other history he]
  · rintro u rfl hdraw
    exact absurd hdraw (of_decide_eq_false he)

theorem kept_dealt (k : RandomKey) : Kept (Dealt k) where
  executed {s past} h hr := by
    by_cases hdraw : s.peek.family.val = 0xC
    · obtain ⟨hkey, hbyte⟩ := step_of_draw hr hdraw
      refine ⟨?_, h.drawn.concat ?_⟩
      · rw [hkey, h.key, draws_concat_of_draw past hdraw, Function.iterate_succ_apply']
      · rintro u hu -
        cases hu
        rw [hbyte, h.key]
    · exact h.concat_of_other (decide_eq_false hdraw) (randomKey_step_of_other hr hdraw)
  still h hr := ⟨(randomKey_step_of_still hr).trans h.key, h.drawn⟩
  ticked h := h.concat_of_other rfl rfl
  keys _ h := ⟨h.key, h.drawn⟩
  loaded _ h := ⟨h.key, h.drawn⟩
  reset h := h.concat_of_other rfl rfl

/-- After any commands, resets among them, the random key is the one that follows the first key by as many keys as
instructions CXNN were executed; and each of these, being the one after so many others, has put into its VX the
byte of the key that follows the first by so many, masked by NN. -/
theorem random_numbers_after_commands (s : State) (cs : List Command) :
    let history := s.chronicle cs
    (s.obeyAll cs).randomKey = RandomKey.next^[draws history] s.randomKey ∧
    ∀ earlier u later, history = earlier ++ .executed u :: later → u.peek.family.val = 0xC →
      u.step.v u.peek.x = (RandomKey.next^[draws earlier] s.randomKey).byte &&& u.peek.byte := by
  have hstart : Dealt s.randomKey s [] := ⟨rfl, fun earlier u later hsplit => by simp at hsplit⟩
  have h := (kept_dealt s.randomKey).obeyAll hstart cs
  exact ⟨h.key, h.drawn⟩

example : RandomKey.next ⟨0, 0⟩ = ⟨1797259609, 2579123966⟩ ∧ RandomKey.spent ⟨0, 0⟩ = ⟨928981903, 3453687069⟩ ∧
    RandomKey.byte ⟨0, 0⟩ = 14 := by decide +kernel

/-- Draws a number into V0 and one into V1. -/
def twoDraws : Payload := .bytes [0xC0, 0xFF, 0xC1, 0x0F]

/-- The first number is drawn, the machine is reset, and both numbers are drawn. -/
def upToLastDraw : List Command := [.load twoDraws, .step, .tick, .reset, .load twoDraws, .step]

def drawer : State := powerOn ⟨false, false, false, false⟩ ⟨0, 0⟩

/-- The third number comes from the third key, in spite of the reset. -/
theorem random_numbers_after_commands_of_redraw :
    (drawer.obeyAll (upToLastDraw ++ [.step])).randomKey = RandomKey.next^[3] ⟨0, 0⟩ ∧
      (drawer.obeyAll upToLastDraw).step.v 1 = (RandomKey.next^[2] ⟨0, 0⟩).byte &&& 0x0F := by
  have hpeek : (drawer.obeyAll upToLastDraw).peek = ⟨0xC10F⟩ := by decide +kernel
  have hr : (drawer.obeyAll upToLastDraw).Running := by decide +kernel
  have hearlier : draws (drawer.chronicle upToLastDraw) = 2 := by decide +kernel
  have hsplit : drawer.chronicle (upToLastDraw ++ [.step]) =
      drawer.chronicle upToLastDraw ++ [.executed (drawer.obeyAll upToLastDraw)] := by
    rw [chronicle_append]
    simp [chronicle, happenings, executions, hr]
  have hdraw : (drawer.obeyAll upToLastDraw).peek.family.val = 0xC := by rw [hpeek]; rfl
  obtain ⟨hkey, hdrawn⟩ := random_numbers_after_commands drawer (upToLastDraw ++ [.step])
  have hlast := hdrawn _ _ [] hsplit hdraw
  rw [hpeek, hearlier] at hlast
  rw [hsplit, draws_concat_of_draw _ hdraw, hearlier] at hkey
  exact ⟨hkey, hlast⟩

end State

end Chip8
