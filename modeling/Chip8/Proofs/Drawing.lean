/-
Drawing a sprite cell by cell. `Screen.draw` goes through the cells of the screen and asks of each
whether the sprite covers it; here the sprite is drawn the other way round, by turning over the cells
it covers one after the other (`toggleAll`). No two of these cells coincide, even where the sprite
wraps around an edge, so their order does not matter, and both ways lead to the same screen and the
same collisions.
-/
import Chip8.Screen
import Mathlib.Data.List.Nodup
import Mathlib.Data.List.ProdSigma

namespace Chip8.Screen

/-! ## Turning over many cells -/

/-- Turns over the cells at the listed coordinates one after the other, and says of each whether it was on. -/
def toggleAll (s : Screen) : List (Int × Int) → Screen × List Bool
  | [] => (s, [])
  | (x, y) :: ps =>
    let (t, wasOn) := s.toggle x y
    let (u, others) := t.toggleAll ps
    (u, wasOn :: others)

theorem toggleAll_cons (s : Screen) (p : Int × Int) (ps : List (Int × Int)) :
    s.toggleAll (p :: ps) = (((s.toggle p.1 p.2).1.toggleAll ps).1,
      s.isSet p.1 p.2 :: ((s.toggle p.1 p.2).1.toggleAll ps).2) := rfl

/-- The row and the column a pair of coordinates wraps to. -/
def place (p : Int × Int) : Fin 32 × Fin 64 := (row p.2, column p.1)

theorem cell_toggle (s : Screen) (p : Int × Int) (r : Fin 32) (c : Fin 64) :
    (s.toggle p.1 p.2).1.cell r c = (s.cell r c ^^ decide ((r, c) = place p)) := by
  simp only [toggle, Bitmap.cell_flip, place, Prod.mk.injEq]

/-- A cell off the place that is turned over stays as it is. -/
theorem cell_toggle_of_ne (s : Screen) {p : Int × Int} {r : Fin 32} {c : Fin 64} (h : (r, c) ≠ place p) :
    (s.toggle p.1 p.2).1.cell r c = s.cell r c := by
  rw [cell_toggle, decide_eq_false h, Bool.xor_false]

/-- If no two coordinates wrap to one place, the cells turned over are those at these places. -/
theorem cell_toggleAll (s : Screen) {ps : List (Int × Int)} (h : (ps.map place).Nodup) (r : Fin 32) (c : Fin 64) :
    (s.toggleAll ps).1.cell r c = (s.cell r c ^^ (ps.map place).contains (r, c)) := by
  induction ps generalizing s with
  | nil => simp [toggleAll]
  | cons p ps ih =>
    rw [List.map_cons, List.nodup_cons] at h
    rw [toggleAll_cons, ih _ h.2, List.map_cons]
    by_cases hp : (r, c) = place p
    · -- this place is turned over now, and no later one comes back to it
      have hrest : (ps.map place).contains (r, c) = false := by
        rw [List.contains_eq_mem, hp]
        exact decide_eq_false h.1
      rw [cell_toggle, List.contains_cons, hrest, hp]
      simp
    · rw [cell_toggle_of_ne s hp, List.contains_cons, beq_false_of_ne hp, Bool.false_or]

/-- Each of these cells is reported as it was before the first of them was turned over. -/
theorem reports_toggleAll (s : Screen) {ps : List (Int × Int)} (h : (ps.map place).Nodup) :
    (s.toggleAll ps).2 = ps.map fun p => s.isSet p.1 p.2 := by
  induction ps generalizing s with
  | nil => rfl
  | cons p ps ih =>
    rw [List.map_cons, List.nodup_cons] at h
    rw [toggleAll_cons, ih _ h.2]
    refine congrArg _ (List.map_congr_left fun q hq => ?_)
    have hne : place q ≠ place p := fun e => h.1 (e ▸ List.mem_map_of_mem hq)
    exact cell_toggle_of_ne s hne

/-! ## The cells of a sprite -/

/-- The coordinates of the cells a sprite covers, row by row. -/
def footprint (rows : List UInt8) (x y height : Int) : List (Int × Int) :=
  (((List.range height.toNat).product (List.range 8)).filter fun (j, i) =>
    (rows.getD j 0).toNat.testBit (7 - i)).map fun (j, i) => (x + i, y + j)

/-- The wrap at 32 bits does not disturb a distance around the screen. -/
theorem offset_eq {n : Nat} (hn : n = 32 ∨ n = 64) (k : Nat) (corner : Int) :
    (offset n k corner : Int) = ((k : Int) - corner) % n := by
  unfold offset
  rw [Int32.toInt_sub, Int32.toInt_ofInt, Int32.toInt_ofNat']
  simp only [Int.bmod, Int32.size]
  rcases hn with rfl | rfl <;> omega

theorem mem_footprint {rows : List UInt8} {x y height : Int} {p : Int × Int} :
    p ∈ footprint rows x y height ↔ ∃ j i : Nat, j < height.toNat ∧ i < 8 ∧
      (rows.getD j 0).toNat.testBit (7 - i) = true ∧ p = (x + i, y + j) := by
  simp only [footprint, List.mem_map, List.mem_filter, Prod.exists, List.pair_mem_product, List.mem_range]
  constructor
  · rintro ⟨j, i, ⟨⟨hj, hi⟩, hb⟩, rfl⟩
    exact ⟨j, i, hj, hi, hb, rfl⟩
  · rintro ⟨j, i, hj, hi, hb, rfl⟩
    exact ⟨j, i, ⟨⟨hj, hi⟩, hb⟩, rfl⟩

theorem place_eq_iff {x y : Int} {i j : Nat} {r : Fin 32} {c : Fin 64} (hi : i < 8) (hj : j < 32) :
    (r, c) = place (x + i, y + j) ↔ offset 64 c x = i ∧ offset 32 r y = j := by
  have hx := offset_eq (.inr rfl) c.val x
  have hy := offset_eq (.inl rfl) r.val y
  simp only [place, row, column, Prod.mk.injEq, Fin.ext_iff]
  omega

/-- No two cells of a sprite of at most 32 rows coincide. -/
theorem nodup_footprint (rows : List UInt8) (x y : Int) {height : Int} (h : height ≤ 32) :
    ((footprint rows x y height).map place).Nodup := by
  unfold footprint
  rw [List.map_map]
  refine List.Nodup.map_on ?_ ((List.nodup_range.product List.nodup_range).filter _)
  rintro ⟨j, i⟩ hp ⟨l, k⟩ hq heq
  simp only [List.mem_filter, List.pair_mem_product, List.mem_range] at hp hq
  obtain ⟨⟨hj, hi⟩, -⟩ := hp
  obtain ⟨⟨hl, hk⟩, -⟩ := hq
  have h1 := (place_eq_iff (x := x) (y := y) hi (by omega : j < 32)).1 rfl
  have h2 := (place_eq_iff (x := x) (y := y) hk (by omega : l < 32)).1 heq
  rw [← h1.1, ← h1.2, h2.1, h2.2]

/-- The sprite covers the places of its footprint and no others. -/
theorem mem_places_iff {rows : List UInt8} {x y height : Int} (h32 : height ≤ 32) (hlen : height ≤ rows.length)
    (r : Fin 32) (c : Fin 64) :
    (r, c) ∈ (footprint rows x y height).map place ↔ (sprite rows x y height).cell r c = true := by
  simp only [List.mem_map, mem_footprint, sprite, Bitmap.cell_ofFn, Bool.and_eq_true, decide_eq_true_eq, spriteRow]
  constructor
  · rintro ⟨p, ⟨j, i, hj, hi, hb, rfl⟩, hp⟩
    obtain ⟨h1, h2⟩ := (place_eq_iff hi (by omega)).1 hp.symm
    -- inside the sprite neither the last row nor the last bit stands in for others
    rw [h1, h2, Nat.min_eq_left (by omega : j ≤ rows.length - 1), Nat.min_eq_left (by omega : i ≤ 7)]
    exact ⟨⟨hi, by omega⟩, hb⟩
  · rintro ⟨⟨hi, hj⟩, hb⟩
    rw [Nat.min_eq_left (by omega : offset 32 r y ≤ rows.length - 1),
      Nat.min_eq_left (by omega : offset 64 c x ≤ 7)] at hb
    exact ⟨_, ⟨_, _, by omega, hi, hb, rfl⟩, ((place_eq_iff hi (by omega)).2 ⟨rfl, rfl⟩).symm⟩

/-! ## Drawing -/

/-- Some cell turned over was on if and only if the screen meets the places turned over. -/
theorem any_reports (s : Screen) {covered : Screen} {ps : List (Int × Int)}
    (h : ∀ r c, (r, c) ∈ ps.map place ↔ covered.cell r c = true) :
    (ps.map fun p => s.isSet p.1 p.2).any id = s.meets covered := by
  rw [Bool.eq_iff_iff, Bitmap.meets_iff, List.any_map, List.any_eq_true]
  constructor
  · rintro ⟨p, hp, hon⟩
    exact ⟨row p.2, column p.1, hon, (h _ _).1 (List.mem_map_of_mem hp)⟩
  · rintro ⟨r, c, hon, hc⟩
    obtain ⟨p, hp, heq⟩ := List.mem_map.1 ((h r c).2 hc)
    obtain ⟨rfl, rfl⟩ := Prod.mk.inj heq
    exact ⟨p, hp, hon⟩

theorem drawOf_eq (s : Screen) {rows : List UInt8} {x y height : Int} (hrows : rows ≠ []) (hx : fits32 x = true)
    (hy : fits32 y = true) (hh : fits32 height = true) :
    s.drawOf rows x y height = .ok (s.draw rows x y height) := by
  have hempty : rows.isEmpty = false := by simpa using hrows
  simp only [drawOf, drawable, narrow, hx, hy, hh, hempty]
  rfl

/-- A sprite of at least one row, drawn in one go, comes to the same as its cells turned over one after
the other, in any order: to the same screen, and it collides if and only if one of them was on. -/
theorem draw_eq_toggleAll (s : Screen) {rows : List UInt8} {x y height : Int} (hrows : rows ≠ [])
    (hx : fits32 x = true) (hy : fits32 y = true) (h32 : height ≤ 32) (hlen : height ≤ rows.length)
    {order : List (Int × Int)} (horder : order.Perm (footprint rows x y height)) :
    s.draw rows x y height = ((s.toggleAll order).1, (s.toggleAll order).2.any id) ∧
      (fits32 height = true → s.drawOf rows x y height = .ok (s.draw rows x y height)) := by
  refine ⟨?_, drawOf_eq s hrows hx hy⟩
  have hplaces : (order.map place).Perm ((footprint rows x y height).map place) := horder.map place
  have hnodup : (order.map place).Nodup := hplaces.nodup_iff.2 (nodup_footprint rows x y h32)
  have hmem : ∀ r c, (r, c) ∈ order.map place ↔ (sprite rows x y height).cell r c = true := fun r c =>
    hplaces.mem_iff.trans (mem_places_iff h32 hlen r c)
  refine Prod.ext (Bitmap.ext fun r c => ?_) ?_
  · have hcovered : (order.map place).contains (r, c) = (sprite rows x y height).cell r c := by
      rw [Bool.eq_iff_iff, List.contains_iff_mem, hmem]
    rw [cell_toggleAll s hnodup, hcovered, draw, Bitmap.cell_xor]
  · rw [reports_toggleAll s hnodup, any_reports s hmem, draw]

/-- A sprite around a corner of the screen, with its own corner at the ends of the 32 bits, drawn from its
last cell on over a screen with one cell on. -/
theorem draw_eq_toggleAll_at_ends :
    let s : Screen := Bitmap.blank.flip 31 0
    let order := (footprint [0xC3, 0x81] (-0x80000000) 0x7FFFFFFF 2).reverse
    s.drawOf [0xC3, 0x81] (-0x80000000) 0x7FFFFFFF 2 = .ok ((s.toggleAll order).1, true) := by
  intro s order
  have horder : order.Perm (footprint [0xC3, 0x81] (-0x80000000) 0x7FFFFFFF 2) := List.reverse_perm _
  obtain ⟨hdraw, hof⟩ := s.draw_eq_toggleAll (by decide) (by decide) (by decide) (by decide) (by decide) horder
  have hon : (s.toggleAll order).2.any id = true := by decide +kernel
  rw [hof (by decide), hdraw, hon]

end Chip8.Screen
