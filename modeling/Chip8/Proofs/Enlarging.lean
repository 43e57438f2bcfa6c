/-
Pictures enlarged. A picture at scale `s` has `s` rows and `s` columns of pixels for each cell of the bitmap, so
its pixel in row `i` and column `j` shows the cell in row `i / s` and column `j / s`. Where the two colours
differ, the bitmap can be read off the picture again, from one pixel a cell.
-/
import Chip8.Picture
import Mathlib.Data.Fin.Basic

namespace Chip8

namespace Picture

/-! ## Repeating the items of a list -/

section

variable {α : Type} (s : Nat) (xs : List α)

theorem repeatEach_cons (x : α) : repeatEach s (x :: xs) = List.replicate s x ++ repeatEach s xs := rfl

theorem length_repeatEach : (repeatEach s xs).length = xs.length * s := by
  induction xs with
  | nil => rw [List.length_nil, Nat.zero_mul]; rfl
  | cons x xs ih =>
    rw [repeatEach_cons, List.length_append, List.length_replicate, ih, List.length_cons, Nat.succ_mul, Nat.add_comm]

theorem repeatEach_one : repeatEach 1 xs = xs := by
  induction xs with
  | nil => rfl
  | cons x xs ih => rw [repeatEach_cons, ih]; rfl

theorem mem_of_mem_repeatEach {x : α} (h : x ∈ repeatEach s xs) : x ∈ xs := by
  obtain ⟨y, hy, hx⟩ := List.mem_flatMap.1 h
  rwa [List.eq_of_mem_replicate hx]

variable {s}

theorem getElem?_repeatEach (hs : 0 < s) (i : Nat) : (repeatEach s xs)[i]? = xs[i / s]? := by
  induction xs generalizing i with
  | nil => rfl
  | cons x xs ih =>
    rw [repeatEach_cons]
    rcases Nat.lt_or_ge i s with hi | hi
    · rw [List.getElem?_append_left (by rwa [List.length_replicate]), List.getElem?_replicate, if_pos hi,
        Nat.div_eq_of_lt hi, List.getElem?_cons_zero]
    · -- past the copies of the first item
      rw [List.getElem?_append_right (by rwa [List.length_replicate]), List.length_replicate, ih,
        Nat.div_eq_sub_div hs hi, List.getElem?_cons_succ]

end

/-! ## The pixels of a picture -/

/-- The pixel in row `i` and column `j`. -/
def pixel? (p : Picture) (i j : Nat) : Option Rgb := p.rows[i]?.bind (·[j]?)

/-- The picture has as many rows and columns as it says. -/
structure Fills (p : Picture) (m n : Nat) : Prop where
  height : p.height = m
  width : p.width = n
  rows : p.rows.length = m
  columns : ∀ row ∈ p.rows, row.length = n

variable {h w : Nat} (b : Bitmap h w) (on off : Rgb)

theorem fills_ofBitmap : (ofBitmap b on off).Fills h w where
  height := rfl
  width := rfl
  rows := by simp [ofBitmap]
  columns row hrow := by
    obtain ⟨cells, -, rfl⟩ := List.mem_map.1 hrow
    simp

theorem pixel?_ofBitmap (y : Fin h) (x : Fin w) :
    (ofBitmap b on off).pixel? y x = some (if b.cell y x then on else off) := by
  have hrow : (ofBitmap b on off).rows[y.val]? = some ((b.get y).toList.map fun c => if c then on else off) := by
    simp [ofBitmap, Place.get_eq_getElem]
  have hcell : (b.get y).toList[x.val]? = some (b.cell y x) := by
    simp [Bitmap.cell, Place.get_eq_getElem]
  rw [pixel?, hrow, Option.bind_some, List.getElem?_map, hcell, Option.map_some]

variable {p : Picture} {m n s : Nat}

theorem Fills.enlarge (hp : p.Fills m n) (s : Nat) : (p.enlarge s).Fills (m * s) (n * s) where
  height := congrArg (· * s) hp.height
  width := congrArg (· * s) hp.width
  rows := by rw [Picture.enlarge, length_repeatEach, List.length_map, hp.rows]
  columns row hrow := by
    obtain ⟨narrow, hnarrow, rfl⟩ := List.mem_map.1 (mem_of_mem_repeatEach s _ hrow)
    rw [length_repeatEach, hp.columns narrow hnarrow]

theorem pixel?_enlarge (hs : 0 < s) (i j : Nat) : (p.enlarge s).pixel? i j = p.pixel? (i / s) (j / s) := by
  rw [pixel?, enlarge, getElem?_repeatEach _ hs, List.getElem?_map, pixel?]
  cases p.rows[i / s]? with
  | none => rfl
  | some row => exact getElem?_repeatEach row hs j

theorem enlarge_one (p : Picture) : p.enlarge 1 = p := by
  have hrows : p.rows.map (repeatEach 1) = p.rows := by
    rw [funext (repeatEach_one (α := Rgb))]
    exact List.map_id _
  simp only [enlarge, hrows, repeatEach_one, Nat.mul_one]

/-- A picture at scale 1 is enlarged as well, to its own size. -/
theorem render_eq_enlarge (hs : 1 ≤ s) : render b s on off = (ofBitmap b on off).enlarge s := by
  rcases Nat.lt_or_ge 1 s with hlt | hle
  · exact if_pos (by omega)
  · obtain rfl : s = 1 := by omega
    rw [enlarge_one]
    rfl

/-- The pixel at a place shows the cell at the quotients by the scale. -/
theorem pixel?_render (hs : 1 ≤ s) (i : Fin (h * s)) (j : Fin (w * s)) :
    (render b s on off).pixel? i j = some (if b.cell i.divNat j.divNat then on else off) := by
  rw [render_eq_enlarge b on off hs, pixel?_enlarge hs]
  exact pixel?_ofBitmap b on off i.divNat j.divNat

/-- The first pixel of a cell, as one of all pixels. -/
theorem pixel?_render_corner (hs : 1 ≤ s) (y : Fin h) (x : Fin w) :
    (render b s on off).pixel? (s * y) (s * x) = some (if b.cell y x then on else off) := by
  rw [render_eq_enlarge b on off hs, pixel?_enlarge hs, Nat.mul_div_cancel_left _ hs, Nat.mul_div_cancel_left _ hs]
  exact pixel?_ofBitmap b on off y x

end Picture

/-! ## Scales and colours from outside -/

theorem Datum.byte_toNat (b : UInt8) : byte (.int b.toNat) = .ok b := by
  have hlt := b.toNat_lt
  rw [byte, exactByte, if_pos (by omega), byteOfInt_toNat]

/-- The components of a colour, as integers. -/
def Rgb.components (c : Rgb) : List Datum := [.int c.red.toNat, .int c.green.toNat, .int c.blue.toNat]

theorem Rgb.ofComponents_components (c : Rgb) : ofComponents c.components = .ok c := by
  have hbytes : c.components.mapM Datum.byte = .ok [c.red, c.green, c.blue] := by
    simp only [components, List.mapM_cons, List.mapM_nil, Datum.byte_toNat]
    rfl
  rw [ofComponents, hbytes]

namespace Picture

variable {h w m n s : Nat}

theorem room_of_lt (hroom : m * n * 3 < memoryLimit) : room m n = .ok () := by
  have hlimit : memoryLimit ≤ countLimit := by decide
  rw [room, if_neg (by omega), if_neg (by omega)]

theorem scaleFor_int (hs : 1 ≤ s) (h64 : fits64 s = true) (hroom : h * s * (w * s) * 3 < memoryLimit) :
    scaleFor h w (.int s) = .ok s := by
  have hscale : scaleOf (.int s) = .ok (s : Int) := by
    rw [scaleOf, Datum.within64, if_pos h64, ite_self]
  have hrows : h * s * w * 3 < memoryLimit := by
    have hle : h * s * w ≤ h * s * (w * s) := Nat.mul_le_mul_left _ (Nat.le_mul_of_pos_right w hs)
    omega
  have hdone : scaleFor h w (.int s) = if 1 < (s : Int) then do
      room (h * s) w
      room (h * s) (w * s)
      return (s : Int)
    else .ok s := by
    rw [scaleFor, hscale]
    rfl
  rw [hdone, room_of_lt hrows, room_of_lt hroom]
  exact ite_self _

/-- Let a bitmap of any size be shown in two colours, at a scale `s` of at least 1. The picture has `s` rows and
`s` columns for each one of the bitmap, and each of its pixels has the colour of the cell at the quotients of
its place by `s`. So if the colours differ, the cells that are on are those whose first pixels have the colour
for them. The components of the colours are taken as they are given, and so is the scale, unless the picture is
beyond all memory. -/
theorem render_upscales {h w s : Nat} (b : Bitmap h w) (hs : 1 ≤ s) (on off : Rgb) :
    let p := render b s on off
    p.Fills (h * s) (w * s) ∧
    (∀ (i : Fin (h * s)) (j : Fin (w * s)),
      p.pixel? i j = some (if b.cell i.divNat j.divNat then on else off)) ∧
    (on ≠ off → b = Bitmap.ofFn fun y x => decide (p.pixel? (s * y) (s * x) = some on)) ∧
    Rgb.ofComponents on.components = .ok on ∧ Rgb.ofComponents off.components = .ok off ∧
    (fits64 s = true → h * s * (w * s) * 3 < memoryLimit → scaleFor h w (.int s) = .ok s) := by
  intro p
  refine ⟨?_, pixel?_render b on off hs, fun hne => Bitmap.ext fun y x => ?_, on.ofComponents_components,
    off.ofComponents_components, scaleFor_int hs⟩
  · show (render b s on off).Fills (h * s) (w * s)
    rw [render_eq_enlarge b on off hs]
    exact (fills_ofBitmap b on off).enlarge s
  · rw [Bitmap.cell_ofFn, pixel?_render_corner b on off hs, Bool.eq_iff_iff, decide_eq_true_eq, Option.some_inj]
    cases b.cell y x with
    | true => simp
    | false => simpa using hne.symm

/-- A bitmap that is wider than high, at scale 3. -/
theorem render_upscales_threefold :
    let b : Bitmap 2 3 := Bitmap.blank.flip 0 2
    let p := render b 3 defaultOn defaultOff
    p.Fills 6 9 ∧ p.pixel? 2 6 = some defaultOn ∧ p.pixel? 3 6 = some defaultOff ∧
    b = Bitmap.ofFn fun y x => decide (p.pixel? (3 * y) (3 * x) = some defaultOn) := by
  intro b p
  obtain ⟨hfills, hpixel, hback, -⟩ := render_upscales b (by decide : 1 ≤ 3) defaultOn defaultOff
  exact ⟨hfills, hpixel 2 6, hpixel 3 6, hback (by decide)⟩

end Picture

end Chip8
