/-
Black-and-white pictures of fixed height and width. A bitmap is read cell by cell (`cell`), and two
bitmaps are equal as soon as all their cells are; each operation is described by its cells.
-/
import Chip8.Place

namespace Chip8

/-- `height` rows of `width` cells, each on or off. -/
abbrev Bitmap (height width : Nat) := Vector (Vector Bool width) height

namespace Bitmap

variable {h w : Nat}

/-- The cell in row `y` and column `x`. -/
def cell (b : Bitmap h w) (y : Fin h) (x : Fin w) : Bool := (b.get y).get x

def ofFn (f : Fin h → Fin w → Bool) : Bitmap h w := Vector.ofFn fun y => Vector.ofFn (f y)

def blank : Bitmap h w := Vector.replicate h (Vector.replicate w false)

def flip (b : Bitmap h w) (y : Fin h) (x : Fin w) : Bitmap h w :=
  Place.put b y (Place.put (b.get y) x (!b.cell y x))

/-- The cells that are on in exactly one of two bitmaps. -/
def xor (a b : Bitmap h w) : Bitmap h w := ofFn fun y x => a.cell y x ^^ b.cell y x

/-- Whether some cell is on in both bitmaps. -/
def meets (a b : Bitmap h w) : Bool :=
  (List.finRange h).any fun y => (List.finRange w).any fun x => a.cell y x && b.cell y x

/-- The column and row of each cell that is on, row by row from the top. -/
def lit (b : Bitmap h w) : List (Fin w × Fin h) :=
  (List.finRange h).flatMap fun y => ((List.finRange w).filter (b.cell y)).map (·, y)

/-- The bitmap with the given rows, if there is a first row and all rows are as long. -/
def ofRows? (rows : List (List Bool)) : Option ((h : Nat) × (w : Nat) × Bitmap h w) :=
  match rows with
  | [] => none
  | r :: _ =>
    if rows.all (·.length == r.length) then
      some ⟨rows.length, r.length, ofFn fun y x => (rows.get y).getD x.val false⟩
    else none

/-! ## Cells -/

theorem ext {a b : Bitmap h w} (e : ∀ y x, a.cell y x = b.cell y x) : a = b :=
  Place.ext fun y => Place.ext fun x => e y x

@[simp] theorem cell_ofFn (f : Fin h → Fin w → Bool) (y : Fin h) (x : Fin w) :
    (ofFn f).cell y x = f y x := by
  simp [ofFn, cell]

@[simp] theorem cell_blank (y : Fin h) (x : Fin w) : (blank : Bitmap h w).cell y x = false := by
  simp [blank, cell]

@[simp] theorem cell_xor (a b : Bitmap h w) (y : Fin h) (x : Fin w) :
    (a.xor b).cell y x = (a.cell y x ^^ b.cell y x) := by
  simp [xor]

theorem cell_flip (b : Bitmap h w) (y r : Fin h) (x c : Fin w) :
    (b.flip y x).cell r c = (b.cell r c ^^ decide (r = y ∧ c = x)) := by
  by_cases hr : r = y
  · subst hr
    by_cases hc : c = x
    · subst hc
      simp [flip, cell]
    · simp [flip, cell, hc, Place.get_put_of_ne _ _ hc]
  · simp [flip, cell, hr, Place.get_put_of_ne _ _ hr]

theorem meets_iff (a b : Bitmap h w) :
    a.meets b = true ↔ ∃ y x, a.cell y x = true ∧ b.cell y x = true := by
  simp [meets]

end Bitmap

end Chip8
