/-
Decimal numerals: whole numbers in groups of three digits, whole numbers read from a text, and
binary fractions with a fixed number of places, rounded exactly, a tie to the even neighbour.
-/

namespace Chip8.Decimal

/-- Puts a comma after every third digit of a numeral written backwards. -/
def groupThrees : List Char → List Char
  | a :: b :: c :: d :: r => a :: b :: c :: ',' :: groupThrees (d :: r)
  | r => r

/-- A whole number with its digits in groups of three. -/
def grouped (n : Int) : String :=
  let digits := (Nat.toDigits 10 n.natAbs).reverse
  (if n < 0 then "-" else "") ++ String.ofList (groupThrees digits).reverse

/-- The value of digits, of which two may have an underscore between them. -/
def readDigits? : List Char → Option Nat
  | [] => none
  | c :: cs => if c.isDigit then more (c.toNat - 48) cs else none
where
  more (n : Nat) : List Char → Option Nat
    | [] => some n
    | '_' :: c :: cs => if c.isDigit then more (n * 10 + (c.toNat - 48)) cs else none
    | c :: cs => if c.isDigit then more (n * 10 + (c.toNat - 48)) cs else none

/-- The whole number a text spells in plain digits, with or without a sign and blanks around it. -/
def readInt? (s : String) : Option Int :=
  let blank (c : Char) := c == ' ' || (9 ≤ c.toNat && c.toNat ≤ 13)
  let cs := ((s.toList.dropWhile blank).reverse.dropWhile blank).reverse
  match cs with
  | '-' :: cs => (readDigits? cs).map fun n => -(n : Int)
  | '+' :: cs => (readDigits? cs).map Int.ofNat
  | cs => (readDigits? cs).map Int.ofNat

/-- Two to a power, and ten to a power; 1 for a negative one. -/
def twoTo (k : Int) : Nat := Nat.pow 2 k.toNat

def tenTo (k : Int) : Nat := Nat.pow 10 k.toNat

/-- A quotient rounded to the nearest whole number, a tie to the even one. -/
def roundDiv (a b : Nat) : Nat :=
  let q := a / b
  let r := a % b
  if 2 * r < b then q else if b < 2 * r then q + 1 else q + q % 2

/-- A finite binary fraction that is not negative: `mantissa` times two to the power `exponent`. -/
structure Binary where
  mantissa : Nat
  exponent : Int
  /-- The next smaller fraction of the format is only half as far away as the next larger one. -/
  narrowBelow : Bool

/-- The size of a finite 64-bit fraction. -/
def Binary.ofBits (bits : UInt64) : Binary :=
  let e := ((bits >>> 52) &&& 0x7FF).toNat
  let f := (bits &&& 0xFFFFFFFFFFFFF).toNat
  if e = 0 then ⟨f, -1074, false⟩
  else ⟨0x10000000000000 + f, (e : Int) - 1075, f == 0 && 1 < e⟩

/-- The two terms of the quotient that a fraction is. -/
def Binary.terms (x : Binary) : Nat × Nat :=
  (x.mantissa * twoTo x.exponent, twoTo (-x.exponent))

def isNegative (x : Float) : Bool := x.toBits >>> 63 == 1

/-- Whether the bits stand for a number, and not for an infinity or for no number. -/
def isFinite (x : Float) : Bool := (x.toBits >>> 52) &&& 0x7FF != 0x7FF

/-- The text of a value that is not finite. -/
def notFinite (x : Float) : String :=
  if x.toBits &&& 0xFFFFFFFFFFFFF != 0 then "nan" else if isNegative x then "-inf" else "inf"

/-- The whole part of a finite fraction. -/
def wholePart (x : Float) : Int :=
  let (a, b) := (Binary.ofBits x.toBits).terms
  if isNegative x then -((a / b : Nat) : Int) else (a / b : Nat)

/-- The fraction nearest to a whole number, unless that is beyond all fractions. -/
def nearest? (n : Int) : Option Float :=
  let x := Float.ofScientific n.natAbs false 0
  if isFinite x then some (if n < 0 then -x else x) else none

/-- A numeral of at least `width` digits. -/
def padded (width n : Nat) : String :=
  let digits := Nat.toDigits 10 n
  String.ofList (List.replicate (width - digits.length) '0' ++ digits)

/-- A fraction with `places` digits after the point. -/
def fixed (places : Nat) (x : Float) : String :=
  if isFinite x then
    let (a, b) := (Binary.ofBits x.toBits).terms
    let unit := tenTo places
    let n := roundDiv (a * unit) b
    (if isNegative x then "-" else "") ++ toString (n / unit) ++ "." ++ padded places (n % unit)
  else notFinite x

end Chip8.Decimal
