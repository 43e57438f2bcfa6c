/-
The list of the cells that are on. It names each of them once, column before row, and goes through the rows from the
top and through each row from the left. It says all there is to say of a bitmap: turned over on a blank screen, in any
order, its cells bring the screen back, and whether a coordinate is on can be looked up in it.
-/
import Chip8.Proofs.Drawing
import Mathlib.Data.Prod.Basic

namespace Chip8

/-! ## The list of a bitmap -/

namespace Bitmap

variable {h w : Nat} (b : Bitmap h w)

theorem mem_lit (x : Fin w) (y : Fin h) : (x, y) ∈ b.lit ↔ b.cell y x = true := by
  simp only [lit, List.mem_flatMap, List.mem_finRange, true_and, List.mem_map, List.mem_filter, Prod.mk.injEq]
  constructor
  · rintro ⟨r, c, hon, rfl, rfl⟩
    exact hon
  · intro hon
    exact ⟨y, x, hon, rfl, rfl⟩

/-- The cell `p` comes before the cell `q`: it is in a row above, or further left in the same row. -/
def Before (p q : Fin w × Fin h) : Prop := p.2 < q.2 ∨ p.2 = q.2 ∧ p.1 < q.1

theorem Before.ne {p q : Fin w × Fin h} (hpq : Before p q) : p ≠ q := by
  rintro rfl
  rcases hpq with hrow | ⟨-, hcolumn⟩
  · exact Fin.lt_irrefl _ hrow
  · exact Fin.lt_irrefl _ hcolumn

theorem pairwise_lit : b.lit.Pairwise Before := by
  refine List.pairwise_flatMap.2 ⟨fun y _ => ?_, ?_⟩
  · rw [List.pairwise_map]
    exact ((List.pairwise_lt_finRange w).filter _).imp fun hlt => .inr ⟨rfl, hlt⟩
  · refine (List.pairwise_lt_finRange h).imp fun hlt p hp q hq => .inl ?_
    obtain ⟨c, -, rfl⟩ := List.mem_map.1 hp
    obtain ⟨d, -, rfl⟩ := List.mem_map.1 hq
    exact hlt

example : (((blank : Bitmap 2 3).flip 1 0).flip 0 2).lit = [(2, 0), (0, 1)] := by
  decide

theorem nodup_lit : b.lit.Nodup := b.pairwise_lit.imp Before.ne

end Bitmap

/-! ## The list of the screen -/

namespace Screen

open Bitmap

/-- A cell by its coordinates, the column first. -/
def coordinates (p : Fin 64 × Fin 32) : Int × Int := (p.1.val, p.2.val)

/-- The coordinates of a cell wrap to itself. -/
theorem place_coordinates (p : Fin 64 × Fin 32) : place (coordinates p) = p.swap := by
  obtain ⟨c, r⟩ := p
  simp only [place, coordinates, row, column, Prod.swap_prod_mk, Prod.mk.injEq, Fin.ext_iff]
  omega

/-- Cells that are listed once each are those that are on after turning them over on a blank screen. -/
theorem cell_toggleAll_blank {cells : List (Fin 64 × Fin 32)} (hcells : cells.Nodup) (r : Fin 32) (c : Fin 64) :
    (toggleAll blank (cells.map coordinates)).1.cell r c = cells.contains (c, r) := by
  have hplaces : (cells.map coordinates).map place = cells.map Prod.swap := by
    rw [List.map_map]
    exact List.map_congr_left fun p _ => place_coordinates p
  have hnodup : (cells.map Prod.swap).Nodup := hcells.map Prod.swap_injective
  rw [cell_toggleAll _ (hplaces ▸ hnodup), cell_blank, Bool.false_xor, hplaces, Bool.eq_iff_iff,
    List.contains_iff_mem, List.contains_iff_mem]
  exact List.mem_map_of_injective Prod.swap_injective (a := (c, r))

theorem toggleAll_lit (s : Screen) {order : List (Fin 64 × Fin 32)} (horder : order.Perm s.lit) :
    (toggleAll blank (order.map coordinates)).1 = s := by
  refine Bitmap.ext fun r c => ?_
  rw [cell_toggleAll_blank (horder.nodup_iff.2 s.nodup_lit), Bool.eq_iff_iff, List.contains_iff_mem, horder.mem_iff,
    mem_lit]

/-- A cell is the one that a pair of coordinates wraps to if it has their remainders. -/
theorem eq_wrapped_iff (p : Fin 64 × Fin 32) (x y : Int) :
    p = (column x, row y) ↔ (p.1.val : Int) = x % 64 ∧ (p.2.val : Int) = y % 32 := by
  obtain ⟨c, r⟩ := p
  simp only [row, column, Prod.mk.injEq, Fin.ext_iff]
  omega

theorem isSet_iff_mem_lit (s : Screen) (x y : Int) : s.isSet x y = true ↔ (column x, row y) ∈ s.lit := by
  rw [mem_lit, isSet]

/-- The list of a screen names the cells that are on and no others, each once, row by row from the top and in a
row from the left. Turned over one by one in any order, its cells bring the screen back from a blank one. A
coordinate, negative or not, is on if and only if the list names the cell with its remainders modulo 64 and 32.
-/
theorem lit_reads_screen (s : Screen) :
    (∀ x y, (x, y) ∈ s.lit ↔ s.cell y x = true) ∧
    s.lit.Nodup ∧
    s.lit.Pairwise (fun p q => p.2 < q.2 ∨ p.2 = q.2 ∧ p.1 < q.1) ∧
    (∀ order : List (Fin 64 × Fin 32), order.Perm s.lit → (toggleAll blank (order.map coordinates)).1 = s) ∧
    ∀ x y : Int, s.isSet x y = true ↔ ∃ p ∈ s.lit, (p.1.val : Int) = x % 64 ∧ (p.2.val : Int) = y % 32 := by
  refine ⟨s.mem_lit, s.nodup_lit, s.pairwise_lit, fun order => s.toggleAll_lit, fun x y => ?_⟩
  rw [isSet_iff_mem_lit]
  constructor
  · intro hmem
    exact ⟨_, hmem, (eq_wrapped_iff _ x y).1 rfl⟩
  · rintro ⟨p, hmem, hp⟩
    rwa [← (eq_wrapped_iff p x y).2 hp]

/-- Three cells, two of them in corners of the screen, turned over from the last to the first. -/
theorem lit_reads_screen_at_corners :
    let s : Screen := ((blank.flip 31 63).flip 0 0).flip 31 5
    (toggleAll blank (s.lit.reverse.map coordinates)).1 = s ∧ s.isSet (-1) (-33) = true := by
  intro s
  obtain ⟨hmem, -, -, hrebuild, hset⟩ := s.lit_reads_screen
  have hlast : (63, 31) ∈ s.lit := (hmem 63 31).2 (by decide)
  exact ⟨hrebuild _ (List.reverse_perm _), (hset (-1) (-33)).2 ⟨_, hlast, by decide⟩⟩

end Screen

end Chip8
