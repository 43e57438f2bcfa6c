/-
The source of random numbers: a key of two 32-bit words and the block function that turns a key and
a counter into two random words. A key is never used twice: drawing a byte also yields the key for
the next draw.

The block function is twenty rounds of adding, rotating and exclusive or. After every four rounds
two of three words made from the key are added in, in turn; the second gets the number of the group
on top.
-/
import Chip8.Integer

namespace Chip8

structure WordPair where
  first : UInt32
  second : UInt32
  deriving DecidableEq

/-- The key of the random numbers to come. -/
abbrev RandomKey := WordPair

namespace RandomKey

def rotateLeft (w : UInt32) (r : UInt32) : UInt32 := (w <<< r) ||| (w >>> (32 - r))

def round (x : WordPair) (r : UInt32) : WordPair :=
  let a := x.first + x.second
  ⟨a, rotateLeft x.second r ^^^ a⟩

/-- Four rounds, then two words from the key. -/
def group (x : WordPair) (rotations : List UInt32) (k₀ k₁ : UInt32) : WordPair :=
  let y := rotations.foldl round x
  ⟨y.first + k₀, y.second + k₁⟩

/-- The rotations of the odd and of the even groups, counted from one. -/
def oddRotations : List UInt32 := [13, 15, 26, 6]

def evenRotations : List UInt32 := [17, 29, 16, 24]

/-- Two random words from a key and a counter. -/
def block (key counter : WordPair) : WordPair :=
  let k₀ := key.first
  let k₁ := key.second
  let k₂ := k₀ ^^^ k₁ ^^^ 0x1BD11BDA
  let x : WordPair := ⟨counter.first + k₀, counter.second + k₁⟩
  let x := group x oddRotations k₁ (k₂ + 1)
  let x := group x evenRotations k₂ (k₀ + 2)
  let x := group x oddRotations k₀ (k₁ + 3)
  let x := group x evenRotations k₁ (k₂ + 4)
  group x oddRotations k₂ (k₀ + 5)

/-- Two keys made from one. -/
def split (k : RandomKey) : RandomKey × RandomKey := (block k ⟨0, 0⟩, block k ⟨0, 1⟩)

/-- The random byte of a key: two words from the second of the keys it splits into, folded into
one. -/
def uniformByte (k : RandomKey) : UInt8 :=
  let w := block k.split.2 ⟨0, 0⟩
  (w.first ^^^ w.second).toUInt8

/-! ## Draws -/

/-- The key for all later draws. -/
def next (k : RandomKey) : RandomKey := k.split.1

/-- The key for the present draw. -/
def spent (k : RandomKey) : RandomKey := k.split.2

/-- The byte of the present draw. -/
def byte (k : RandomKey) : UInt8 := k.spent.uniformByte

/-- The key of a seed, which has to fit 64 bits and of which the lower 32 count. -/
def ofSeed (seed : Int) : Except Error RandomKey :=
  if fits64 seed then .ok ⟨0, UInt32.ofInt seed⟩ else .error .integerTooWide

end RandomKey

end Chip8
