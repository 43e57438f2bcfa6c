/-
Integers of any size become machine words in two steps: `narrow` refuses what does not fit a signed
32-bit integer, and what is left is reduced modulo the width of the word, never clamped.
-/
import Chip8.Error

namespace Chip8

/-- Whether an integer fits a signed 32-bit integer. -/
def fits32 (n : Int) : Bool := -0x80000000 ≤ n && n < 0x80000000

/-- A signed 32-bit integer, or a refusal. -/
def narrow (n : Int) : Except Error Int := if fits32 n then .ok n else .error .integerTooWide

/-- Whether an integer fits a signed 64-bit integer. -/
def fits64 (n : Int) : Bool := -0x8000000000000000 ≤ n && n < 0x8000000000000000

/-- The byte and the 16-bit word an integer wraps to. -/
def wrap (n : Int) : Except Error (UInt8 × UInt16) := do
  let k ← narrow n
  return (UInt8.ofInt k, UInt16.ofInt k)

theorem fits32_iff {n : Int} : fits32 n = true ↔ -0x80000000 ≤ n ∧ n < 0x80000000 := by
  simp only [fits32, Bool.and_eq_true, decide_eq_true_eq]

theorem fits64_iff {n : Int} : fits64 n = true ↔ -0x8000000000000000 ≤ n ∧ n < 0x8000000000000000 := by
  simp only [fits64, Bool.and_eq_true, decide_eq_true_eq]

theorem narrow_of_fits {n : Int} (h : -0x80000000 ≤ n ∧ n < 0x80000000) : narrow n = .ok n :=
  if_pos (fits32_iff.2 h)

theorem narrow_of_not_fits {n : Int} (h : ¬ (-0x80000000 ≤ n ∧ n < 0x80000000)) : narrow n = .error .integerTooWide :=
  if_neg (mt fits32_iff.1 h)

theorem toNat_byteOfInt (n : Int) : ((UInt8.ofInt n).toNat : Int) = n % 256 := by
  unfold UInt8.ofInt
  rw [UInt8.toNat_ofNat']
  omega

/-- A byte is the byte of its number. -/
theorem byteOfInt_toNat (b : UInt8) : UInt8.ofInt b.toNat = b := by
  have hlt := b.toNat_lt
  have hmod := toNat_byteOfInt b.toNat
  rw [← UInt8.toNat_inj]
  omega

end Chip8
