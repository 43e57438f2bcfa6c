/-
Rows of `n` cells. A cell is read and written by its place, a `Fin n`; integers from outside name
places too, a negative number counting back from the end, as the last cell is -1. `cell?` is the
place an integer names, `cut` the boundary of a stretch of cells.
-/

namespace Chip8.Place

/-- The cell an integer names, if it names one. -/
def cell? (n : Nat) (k : Int) : Option (Fin n) :=
  let j := if k < 0 then k + n else k
  if h : 0 ≤ j ∧ j < n then some ⟨j.toNat, by omega⟩ else none

/-- The cell nearest to the place an integer names, in a row whose last cell is `last`. -/
def nearest (last : Nat) (k : Int) : Fin (last + 1) :=
  let j := if k < 0 then k + (last + 1) else k
  ⟨min j.toNat last, by omega⟩

/-- The boundary before the place an integer names, brought into 0..n. -/
def cut (n : Nat) (k : Int) : Nat :=
  if k < 0 then (k + n).toNat else min k.toNat n

theorem cell?_ofNat {n k : Nat} (h : k < n) : cell? n k = some ⟨k, h⟩ := by
  unfold cell?
  simp only [show ¬ ((k : Int) < 0) by omega, if_false]
  rw [dif_pos (by omega)]
  simp

theorem cut_ofNat {n k : Nat} (h : k ≤ n) : cut n k = k := by
  unfold cut
  rw [if_neg (by omega)]
  omega

/-! ## Writing a cell -/

variable {α : Type} {n : Nat}

/-- The row with one cell written over. -/
def put (v : Vector α n) (i : Fin n) (a : α) : Vector α n := v.setIfInBounds i.val a

theorem get_eq_getElem (v : Vector α n) (i : Fin n) : v.get i = v[i.val] := rfl

theorem ext {v w : Vector α n} (h : ∀ i, v.get i = w.get i) : v = w :=
  Vector.ext fun i hi => h ⟨i, hi⟩

@[simp] theorem get_ofFn (f : Fin n → α) (i : Fin n) : (Vector.ofFn f).get i = f i := by
  simp [get_eq_getElem]

@[simp] theorem get_replicate (a : α) (i : Fin n) : (Vector.replicate n a).get i = a := by
  simp [get_eq_getElem]

@[simp] theorem get_put_self (v : Vector α n) (i : Fin n) (a : α) : (put v i a).get i = a := by
  simp [put, get_eq_getElem]

theorem get_put_of_ne (v : Vector α n) {i j : Fin n} (a : α) (h : j ≠ i) :
    (put v i a).get j = v.get j := by
  have h' : i.val ≠ j.val := fun e => h (Fin.ext e.symm)
  simp [put, get_eq_getElem, h']

end Chip8.Place
