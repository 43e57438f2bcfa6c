/-
Drawing as an exclusive or. A sprite turns over the same cells whatever the screen shows, so of many sprites only
the cells count that an odd number of them covers (`covered`): the order in which they are drawn does not matter
to the screen, and drawing all of them once more brings back the screen as it was. The collisions do depend on
the order, and nothing is said of them here. DXYN executed twice brings back the whole state, save VF.
-/
import Chip8.Proofs.Sprite

namespace Chip8

/-! ## Exclusive or of bitmaps -/

namespace Bitmap

variable {h w : Nat} (a b c : Bitmap h w)

theorem xor_blank : a.xor blank = a :=
  ext fun y x => by rw [cell_xor, cell_blank, Bool.xor_false]

theorem xor_assoc : (a.xor b).xor c = a.xor (b.xor c) :=
  ext fun y x => by rw [cell_xor, cell_xor, cell_xor, cell_xor, Bool.xor_assoc]

theorem xor_left_comm : a.xor (b.xor c) = b.xor (a.xor c) :=
  ext fun y x => by rw [cell_xor, cell_xor, cell_xor, cell_xor, Bool.xor_left_comm]

theorem xor_xor_self : (a.xor b).xor b = a :=
  ext fun y x => by rw [cell_xor, cell_xor, Bool.xor_assoc, Bool.xor_self, Bool.xor_false]

end Bitmap

/-! ## Many sprites -/

/-- A sprite and where it is drawn. -/
structure Drawing where
  rows : List UInt8
  x : Int
  y : Int
  height : Int

namespace Drawing

/-- The sprite can be drawn: it has a row, and its measures fit 32 bits. -/
structure Fits (d : Drawing) : Prop where
  rows : d.rows ≠ []
  x : fits32 d.x = true
  y : fits32 d.y = true
  height : fits32 d.height = true

def cover (d : Drawing) : Screen := Screen.sprite d.rows d.x d.y d.height

end Drawing

namespace Screen

/-- Draws sprites one after the other. -/
def drawAll (s : Screen) : List Drawing → Except Error Screen
  | [] => .ok s
  | d :: ds => do
    let (t, _) ← s.drawOf d.rows d.x d.y d.height
    t.drawAll ds

/-- The cells that an odd number of the sprites covers. -/
def covered : List Drawing → Screen
  | [] => Bitmap.blank
  | d :: ds => d.cover.xor (covered ds)

theorem drawAll_eq (s : Screen) {ds : List Drawing} (h : ∀ d ∈ ds, d.Fits) :
    s.drawAll ds = .ok (s.xor (covered ds)) := by
  induction ds generalizing s with
  | nil => rw [drawAll, covered, Bitmap.xor_blank]
  | cons d ds ih =>
    obtain ⟨hd, hds⟩ := List.forall_mem_cons.1 h
    rw [drawAll, drawOf_eq s hd.rows hd.x hd.y hd.height, covered, ← Bitmap.xor_assoc]
    exact ih (s.xor d.cover) hds

theorem covered_perm {ds es : List Drawing} (h : ds.Perm es) : covered ds = covered es := by
  induction h with
  | nil => rfl
  | cons d _ ih => rw [covered, covered, ih]
  | swap d e ds => exact Bitmap.xor_left_comm e.cover d.cover (covered ds)
  | trans _ _ ih ih' => exact ih.trans ih'

end Screen

/-! ## One instruction, twice -/

namespace State

variable (s : State) {x y n : Fin 16}

theorem v_draw_of_ne {r : Fin 16} (h : r ≠ Registers.flag) : (s.draw x y n).v r = s.v r := by
  rw [draw_eq]
  exact Registers.read_write_of_ne _ _ h

/-- The second time DXYN reads the same coordinates, index and bytes, unless VF is among the coordinates. -/
theorem cover_draw (hx : x ≠ Registers.flag) (hy : y ≠ Registers.flag) :
    (s.draw x y n).cover x y n = s.cover x y n := by
  have hbytes : (s.draw x y n).spriteBytes = s.spriteBytes := by simp only [draw_eq, spriteBytes]
  rw [cover, v_draw_of_ne s hx, v_draw_of_ne s hy, hbytes, cover]

theorem covers_draw_iff (hx : x ≠ Registers.flag) (hy : y ≠ Registers.flag) (r : Fin 32) (c : Fin 64) :
    (s.draw x y n).Covers x y n r c ↔ s.Covers x y n r c := by
  rw [← cell_cover_iff, ← cell_cover_iff, cover_draw s hx hy]

theorem draw_draw (hx : x ≠ Registers.flag) (hy : y ≠ Registers.flag) :
    let u := (s.draw x y n).draw x y n
    u = { s with registers := s.registers.write Registers.flag (u.v Registers.flag) } := by
  intro u
  have hflag := flag_draw (s.draw x y n) x y n
  have hu : u = _ := draw_eq (s.draw x y n) x y n
  rw [cover_draw s hx hy] at hu hflag
  rw [hflag, hu, draw_eq]
  simp only [Bitmap.xor_xor_self, Registers.write_write]

/-- The first time, the cells that DXYN covers are turned over: those that were off are on the second time. -/
theorem cell_second_draw (hx : x ≠ Registers.flag) (hy : y ≠ Registers.flag) {r : Fin 32} {c : Fin 64}
    (h : (s.draw x y n).Covers x y n r c) : (s.draw x y n).screen.cell r c = !s.screen.cell r c :=
  cell_draw_of_covers ((s.covers_draw_iff hx hy r c).1 h)

end State

/-- Sprites can be drawn in any order, to the same screen, and once more in any order, back to the screen
before. DXYN, with neither coordinate in VF, executed twice leaves all but VF as it was; VF is then 1 if one of
the cells it covers was off at first, and 0 otherwise. -/
theorem State.drawing_commutes_and_undoes (screen : Screen) {ds : List Drawing} (h : ∀ d ∈ ds, d.Fits) :
    (∃ t : Screen, ∀ order : List Drawing, order.Perm ds →
      screen.drawAll order = .ok t ∧ t.drawAll order = .ok screen) ∧
    ∀ (s : State) (o : Opcode), o.family.val = 0xD → o.x ≠ Registers.flag → o.y ≠ Registers.flag →
      let u := (s.execute (Instruction.decode o)).execute (Instruction.decode o)
      let Covered := s.Covers o.x o.y o.n
      u = { s with registers := s.registers.write Registers.flag (u.v Registers.flag) } ∧
      ((∃ r c, Covered r c ∧ s.screen.cell r c = false) → u.v Registers.flag = 1) ∧
      ((∀ r c, Covered r c → s.screen.cell r c = true) → u.v Registers.flag = 0) := by
  constructor
  · refine ⟨screen.xor (Screen.covered ds), fun order horder => ?_⟩
    have hfits : ∀ d ∈ order, d.Fits := fun d hd => h d (horder.mem_iff.1 hd)
    rw [Screen.drawAll_eq _ hfits, Screen.drawAll_eq _ hfits, Screen.covered_perm horder, Bitmap.xor_xor_self]
    exact ⟨rfl, rfl⟩
  · intro s o ho hx hy
    simp only [execute_of_drawing _ ho]
    refine ⟨s.draw_draw hx hy, ?_, fun hon => flag_draw_of_off fun r c hc => ?_⟩
    · rintro ⟨r, c, hc, hoff⟩
      have hc' := (s.covers_draw_iff hx hy r c).2 hc
      refine flag_draw_of_on hc' ?_
      rw [s.cell_second_draw hx hy hc', hoff]
      rfl
    · rw [s.cell_second_draw hx hy hc, hon r c ((s.covers_draw_iff hx hy r c).1 hc)]
      rfl

/-- Three sprites that meet around a corner of the screen: one from the ends of the 32 bits and higher than the
screen, one higher than its rows, and one of negative height. -/
def threeDrawings : List Drawing :=
  [⟨[0xC3, 0x81], -0x80000000, 0x7FFFFFFF, 40⟩, ⟨[0xFF], 60, -1, 7⟩, ⟨[0x18], 3, 3, -2⟩]

/-- The corner with V0 there as well. -/
def atCornerByV0 : State := State.atCorner.setRegister Registers.first 0xFF

/-- D001 at the corner, where one of the four cells it covers is on, and these sprites forwards and backwards. -/
theorem State.drawing_commutes_and_undoes_at_corner :
    let s := atCornerByV0
    (∃ t : Screen, s.screen.drawAll threeDrawings = .ok t ∧ s.screen.drawAll threeDrawings.reverse = .ok t ∧
      t.drawAll threeDrawings.reverse = .ok s.screen) ∧
    (s.execute (Instruction.decode ⟨0xD001⟩)).execute (Instruction.decode ⟨0xD001⟩) =
      { s with registers := s.registers.write Registers.flag 1 } := by
  have hfits : ∀ d ∈ threeDrawings, d.Fits := by
    intro d hd
    simp only [threeDrawings, List.mem_cons, List.not_mem_nil, or_false] at hd
    rcases hd with rfl | rfl | rfl <;> exact ⟨by simp, by decide, by decide, by decide⟩
  have hbyte : atCornerByV0.memory.read (atCornerByV0.index.toNat + 0) = 0xC3 := byte_atCorner
  have hcovers : atCornerByV0.Covers 0 0 1 31 63 :=
    ⟨0, 0, by decide, by decide, by rw [hbyte]; decide, rfl, rfl⟩
  have hoff : atCornerByV0.screen.cell 31 63 = false := by decide
  obtain ⟨⟨t, ht⟩, htwice⟩ := drawing_commutes_and_undoes atCornerByV0.screen hfits
  obtain ⟨hback, hflag, -⟩ := htwice atCornerByV0 ⟨0xD001⟩ rfl (by decide) (by decide)
  rw [hflag ⟨31, 63, hcovers, hoff⟩] at hback
  exact ⟨⟨t, (ht _ (.refl _)).1, ht _ (List.reverse_perm _)⟩, hback⟩

end Chip8
