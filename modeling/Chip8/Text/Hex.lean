/-
Hexadecimal numerals as the machine's displays and messages write them: upper-case digits, padded
with zeros on the left to a least width and never cut. `ofInt` writes the sign of a negative number
first and counts it in the width.
-/

namespace Chip8.Hex

/-- The digit for a value below 16. -/
def digit (d : Nat) : Char :=
  if d < 10 then Char.ofNat (48 + d) else Char.ofNat (55 + d)

/-- The numeral of `n`, most significant digit first, at least `width` digits long. -/
def digits (width n : Nat) : List Char :=
  if n < 16 then List.replicate (width - 1) '0' ++ [digit n]
  else digits (width - 1) (n / 16) ++ [digit (n % 16)]
termination_by n

def ofNat (width n : Nat) : String := String.ofList (digits width n)

def ofInt (width : Nat) (n : Int) : String :=
  if n < 0 then "-" ++ ofNat (width - 1) n.natAbs else ofNat width n.toNat

end Chip8.Hex
