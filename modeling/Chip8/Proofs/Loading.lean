/-
Loads that return and loads that do not. A load resets the machine first, and can then fail at four points, the
last of them after the image was stored: when its length is to be logged. Apart from tables without an axis, the
images without a length are bare numbers, which stand for zeros, and where a program goes a machine that was reset
holds zeros. So a load either leaves the machine as a reset leaves it, or stores all that the image stands for, and
there is nothing in between.
-/
import Chip8.Proofs.Images
import Chip8.Proofs.Stopped
import Chip8.Proofs.Transfer

namespace Chip8

/-! ## The memory of a machine that was reset -/

namespace Memory

/-- Bytes that do not reach the end of memory, cell by cell. -/
theorem read_writeAll (m : Memory) {start : Nat} {bs : List UInt8} (h : start + bs.length ≤ 4096) {a : Nat}
    (ha : a < 4096) :
    (m.writeAll start bs).read a = if start ≤ a ∧ a < start + bs.length then bs.getD (a - start) 0 else m.read a := by
  obtain ⟨hinside, houtside⟩ := m.stored_writeAll start (by omega : bs.length ≤ 4096)
  by_cases hin : start ≤ a ∧ a < start + bs.length
  · obtain ⟨i, rfl⟩ := Nat.exists_eq_add_of_le hin.1
    have hi : i < bs.length := by omega
    rw [if_pos hin, hinside i hi, Nat.add_sub_cancel_left, List.getD_eq_getElem _ _ hi]
  · rw [if_neg hin]
    apply houtside
    intro i hi
    omega

/-- The byte at an address of a fresh memory that holds an image: the glyphs are at the bottom, the image is from
0x200 on, and everything else is zero. -/
def byteWith (image : List UInt8) (a : Nat) : UInt8 :=
  if a < 0x50 then glyphs.getD a 0
  else if 0x200 ≤ a ∧ a < 0x200 + image.length then image.getD (a - 0x200) 0
  else 0

theorem read_initial {a : Nat} (ha : a < 4096) : initial.read a = if a < 0x50 then glyphs.getD a 0 else 0 := by
  have hblank : Memory.read (Vector.replicate 4096 0) a = 0 := by simp [read]
  have hglyphs : glyphs.length = 0x50 := rfl
  unfold initial glyphStart
  rw [read_writeAll _ (by omega) ha, hblank, hglyphs]
  simp

/-- A fresh memory with an image that fits. -/
theorem read_initial_writeAll {image : List UInt8} (h : image.length ≤ programRoom) {a : Nat} (ha : a < 4096) :
    (initial.writeAll programStart image).read a = byteWith image a := by
  unfold programRoom size programStart at h
  unfold programStart byteWith
  rw [read_writeAll _ (by omega) ha, read_initial ha]
  -- the glyphs end below the image
  by_cases hlow : a < 0x50
  · rw [if_neg (by omega), if_pos hlow, if_pos hlow]
  · rw [if_neg hlow, if_neg hlow]

/-- Zeros from 0x200 on leave a fresh memory as it is. -/
theorem initial_writeAll_zeros {n : Nat} (h : n ≤ programRoom) :
    initial.writeAll programStart (List.replicate n 0) = initial := by
  unfold programRoom size programStart at h
  apply writeAll_of_standing
  intro i hi
  rw [List.length_replicate] at hi
  unfold programStart
  rw [read_initial (by omega), if_neg (by omega), List.getElem_replicate]

end Memory

/-! ## Images without a length -/

namespace Payload

/-- An image without a length is a bare number, which stands for zeros, unless it is a table without an axis. -/
theorem exists_zeros_of_no_length {p : Payload} (hp : ∀ items, p ≠ .table [] items) (hn : p.length? = none)
    {image : List UInt8} (h : p.toBytes = .ok image) : ∃ k, image = List.replicate k 0 := by
  have hzeros := standsFor_of_toBytes h
  cases p with
  | bytes | run => cases hn
  | table shape items =>
    cases shape with
    | nil => exact absurd rfl (hp items)
    | cons => cases hn
  | value d =>
    cases d with
    | bool | int =>
      obtain ⟨k, -, himage⟩ := hzeros
      exact ⟨k, himage⟩
    | list | record | text => cases hn
    | null | real => cases h

end Payload

namespace State

/-- The state `t` is the state `s` after a reset, with an image in memory. -/
structure Holding (s : State) (image : List UInt8) (t : State) : Prop where
  fits : image.length ≤ Memory.programRoom
  memory : ∀ a < 4096, t.memory.read a = Memory.byteWith image a
  others : t = { s.reset with memory := t.memory }

end State

namespace Machine

open State

/-- A load is refused and leaves a machine that was reset, or it returns and leaves one with the whole image. -/
theorem load_cases (s : State) {p : Payload} (hp : ∀ items, p ≠ .table [] items) :
    (∃ e, load s p = ⟨s.reset, .error e, [Log.machineReset]⟩) ∨
    ∃ t image n, p.toBytes = .ok image ∧ Holding s image t ∧
      load s p = ⟨t, .ok .done, [Log.machineReset, Log.programLoaded n Memory.programStart]⟩ := by
  unfold load
  rcases ht : s.reset.load p with e | t
  · exact .inl ⟨e, rfl⟩
  · obtain ⟨image, himage, hfits, rfl⟩ := load_eq ht
    rcases hn : p.length? with - | n
    · -- the image was stored before its length was missed, but it is made of zeros
      obtain ⟨k, rfl⟩ := Payload.exists_zeros_of_no_length hp hn himage
      rw [List.length_replicate] at hfits
      refine .inl ⟨.noLength, ?_⟩
      have hmemory : s.reset.memory.writeAll Memory.programStart (List.replicate k 0) = s.reset.memory :=
        Memory.initial_writeAll_zeros hfits
      simp only [hmemory]
    · exact .inr ⟨_, image, n, himage, ⟨hfits, fun a => Memory.read_initial_writeAll hfits, rfl⟩, rfl⟩

/-- Let a machine in any state, whose log tells the time, be given an image in any form but a table without an
axis, which has no length either but stands for a byte of its own. If the load is answered with an error, the
state is that of a machine that was reset, and nothing but the reset is logged. If it returns, the glyphs are at
the bottom of memory, all bytes that the image stands for are from 0x200 on, zeros are everywhere else, and
everything but the memory is as after a reset. The random key and the dialect are kept in both cases. -/
theorem load_resets_or_stores {m : Machine} (hc : m.console.clock.Tells) {p : Payload}
    (hp : ∀ items, p ≠ .table [] items) :
    let answer := m.perform (.load p)
    (∀ e, answer.2.1 = .error e →
      answer.1.state = m.state.reset ∧ answer.2.2 = (m.console.printAll [Log.machineReset]).2.1) ∧
    (∀ r, answer.2.1 = .ok r →
      ∃ image, p.toBytes = .ok image ∧ p.StandsFor image ∧ Holding m.state image answer.1.state) ∧
    answer.1.state.randomKey = m.state.randomKey ∧ answer.1.state.dialect = m.state.dialect := by
  intro answer
  have hreply : answer.2.1 = (load m.state p).reply := (perform_of_tells hc (.load p)).1
  have hstate : answer.1.state = (load m.state p).state := rfl
  have hlines : answer.2.2 = (m.console.printAll (load m.state p).entries).2.1 := rfl
  rcases load_cases m.state hp with ⟨e, hload⟩ | ⟨t, image, n, himage, hholding, hload⟩
  · rw [hload] at hreply hstate hlines
    refine ⟨fun _ _ => ⟨hstate, hlines⟩, fun r hr => absurd (hreply.symm.trans hr) nofun, ?_⟩
    rw [hstate]
    exact ⟨rfl, rfl⟩
  · rw [hload] at hreply hstate
    refine ⟨fun e he => absurd (hreply.symm.trans he) nofun, fun _ _ =>
      ⟨image, himage, Payload.standsFor_of_toBytes himage, hstate ▸ hholding⟩, ?_⟩
    rw [hstate, hholding.others]
    exact ⟨rfl, rfl⟩

/-- A machine as no run leaves it: stopped while it waits for a key, and without the glyphs. -/
def astray : Machine where
  state := { frameless.state with memory := Vector.replicate 4096 0xFF, waiting := true, fault := 1 }
  frameLength := .error .missing
  console := frameless.console

/-- The number 2 stands for two zeros, which are stored and then refused: the machine is left as after a reset. A list
of two bytes is stored as a program, and so is a table of two integers, modulo 256. -/
theorem load_resets_or_stores_when_astray :
    (astray.perform (.load (.value (.int 2)))).1.state = astray.state.reset ∧
    Holding astray.state [0xF5, 1] (astray.perform (.load (.value (.list [.int 0xF5, .bool true])))).1.state ∧
    Holding astray.state [0xF5, 1] (astray.perform (.load (.table [2] [.int (-0xB), .int 0x101]))).1.state := by
  have hc : astray.console.clock.Tells := Log.Clock.tells_ofReadings (by simp) (by simp)
  have hstored {p : Payload} (hp : ∀ items, p ≠ .table [] items) (himage : p.toBytes = .ok [0xF5, 1])
      (hreply : (load astray.state p).reply = .ok .done) :
      Holding astray.state [0xF5, 1] (astray.perform (.load p)).1.state := by
    obtain ⟨image, himage', -, hholding⟩ :=
      (load_resets_or_stores hc hp).2.1 _ ((perform_of_tells hc (.load p)).1.trans hreply)
    obtain rfl : [0xF5, 1] = image := Except.ok.inj (himage.symm.trans himage')
    exact hholding
  refine ⟨?_, hstored (by simp) rfl rfl, hstored (by simp) rfl rfl⟩
  have hrefused : (load astray.state (.value (.int 2))).reply = .error .noLength := rfl
  have hreply := (perform_of_tells hc (.load (.value (.int 2)))).1.trans hrefused
  exact ((load_resets_or_stores hc (by simp)).1 _ hreply).1

end Machine

end Chip8
