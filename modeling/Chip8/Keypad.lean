/-
The sixteen keys 0..F, each down or up. A program that waits for a key sees the lowest one down.
-/
import Chip8.Place

namespace Chip8

abbrev Keypad := Vector Bool 16

namespace Keypad

def released : Keypad := Vector.replicate 16 false

def isDown (k : Keypad) (key : Fin 16) : Bool := k.get key

def put (k : Keypad) (key : Fin 16) (down : Bool) : Keypad := Place.put k key down

/-- The lowest key that is down. -/
def lowest? (k : Keypad) : Option (Fin 16) := (List.finRange 16).find? k.isDown

/-- The keys that are down, ascending. -/
def down (k : Keypad) : List (Fin 16) := (List.finRange 16).filter k.isDown

/-- The keypad on which the listed keys and no others are down. -/
def ofDown (keys : List Nat) : Keypad := Vector.ofFn fun key => keys.contains key.val

/-- The key a byte names by its lower half. -/
def keyOf (b : UInt8) : Fin 16 := ⟨b.toNat % 16, Nat.mod_lt _ (by decide)⟩

theorem isDown_put (k : Keypad) (key i : Fin 16) (down : Bool) :
    (k.put key down).isDown i = if i = key then down else k.isDown i := by
  by_cases h : i = key
  · simp [isDown, put, h]
  · simp [isDown, put, h, Place.get_put_of_ne k down h]

theorem lowest?_eq_none_iff (k : Keypad) : k.lowest? = none ↔ ∀ i, k.isDown i = false := by
  simp [lowest?, List.find?_eq_none]

theorem exists_lowest? {k : Keypad} {i : Fin 16} (h : k.isDown i = true) : ∃ key, k.lowest? = some key := by
  cases hk : k.lowest? with
  | some key => exact ⟨key, rfl⟩
  | none => simp [k.lowest?_eq_none_iff.1 hk i] at h

theorem lowest?_eq_some {k : Keypad} {key : Fin 16} (h : k.lowest? = some key) :
    k.isDown key = true ∧ ∀ i < key, k.isDown i = false := by
  obtain ⟨hd, j, hj, hkey, hbefore⟩ := List.find?_eq_some_iff_getElem.1 h
  rw [List.getElem_finRange] at hkey
  refine ⟨hd, fun i hi => ?_⟩
  have hij : i.val < j := by
    have := congrArg Fin.val hkey
    simp only [Fin.val_cast] at this
    omega
  simpa using hbefore i.val hij

theorem eq_of_released {k l : Keypad} (hk : ∀ i, k.isDown i = false) (hl : ∀ i, l.isDown i = false) : k = l :=
  Place.ext fun i => (hk i).trans (hl i).symm

end Keypad

end Chip8
