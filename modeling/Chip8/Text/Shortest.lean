/-
The shortest decimal that reads back as a given binary fraction. The numbers that round to the
fraction form an interval around it; the decimals of one digit, of two digits and so on are tried
until one of the two neighbours of the fraction lies in the interval, and of two the nearer is
taken, on a tie the even one.
-/
import Chip8.Text.Decimal

namespace Chip8.Decimal

/-- Compares `a` times ten to the power `i` with `n` times two to the power `j`. -/
def compareScaled (a : Nat) (i : Int) (n : Nat) (j : Int) : Ordering :=
  compare (a * tenTo i * twoTo (-j)) (n * twoTo j * tenTo (-i))

/-- Whether `digits` times ten to the power `power` rounds to the fraction; the ends of the interval
belong to it if the mantissa is even. -/
def Binary.readsBack (x : Binary) (digits : Nat) (power : Int) : Bool :=
  let low := if x.narrowBelow then 4 * x.mantissa - 1 else 4 * x.mantissa - 2
  let ends := x.mantissa % 2 = 0
  let cl := compareScaled digits power low (x.exponent - 2)
  let ch := compareScaled digits power (4 * x.mantissa + 2) (x.exponent - 2)
  (cl == .gt || (ends && cl == .eq)) && (ch == .lt || (ends && ch == .eq))

/-- The least power of ten above a fraction that is not zero. -/
def Binary.scale (x : Binary) : Int :=
  let guess := (x.mantissa.log2 + x.exponent) * 30103 / 100000 - 1
  let above := (List.range 5).map fun (k : Nat) => guess + k
  (above.find? fun k => compareScaled 1 k x.mantissa x.exponent == .gt).getD guess

/-- The neighbour of the fraction on the grid of a power of ten that reads back, the nearer of two. -/
def Binary.onGrid? (x : Binary) (power : Int) : Option (Nat × Int) :=
  let (a, b) := x.terms
  let a := a * tenTo (-power)
  let b := b * tenTo power
  let q := a / b
  match x.readsBack q power, x.readsBack (q + 1) power with
  | true, true => some (roundDiv a b, power)
  | true, false => some (q, power)
  | false, true => some (q + 1, power)
  | false, false => none

/-- Takes trailing zeros, at most `fuel` of them, into the power. -/
def dropZeros : Nat → Nat → Int → Nat × Int
  | 0, digits, power => (digits, power)
  | fuel + 1, digits, power =>
    if digits % 10 = 0 then dropZeros fuel (digits / 10) (power + 1) else (digits, power)

/-- The digits and the power of ten of the shortest decimal of a fraction that is not zero. -/
def Binary.shortest (x : Binary) : Nat × Int :=
  let k := x.scale
  -- a negative power of two is that power of five, moved by as many places
  let exact := (x.mantissa * twoTo x.exponent * Nat.pow 5 (-x.exponent).toNat, min x.exponent 0)
  let (digits, power) :=
    ((List.range 17).findSome? fun (n : Nat) => x.onGrid? (k - 1 - n)).getD exact
  dropZeros 400 digits power

/-- The exponent of a decimal in scientific form, signed and of at least two digits. -/
def exponentText (e : Int) : String :=
  "e" ++ (if e < 0 then "-" else "+") ++ padded 2 e.natAbs

/-- A decimal that is not zero: positional where its leading digit stands for a power of ten from
-4 to 15, scientific elsewhere; a whole number keeps one zero after its point. -/
def layOut (digits : Nat) (power : Int) : String :=
  let ds := Nat.toDigits 10 digits
  let lead := power + ds.length - 1
  if lead < -4 ∨ 16 ≤ lead then
    String.ofList (ds.take 1) ++ (if ds.length = 1 then "" else "." ++ String.ofList (ds.drop 1)) ++
      exponentText lead
  else if lead < 0 then
    "0." ++ String.ofList (List.replicate (-lead - 1).toNat '0' ++ ds)
  else
    let whole := ds.take (lead + 1).toNat
    let rest := ds.drop (lead + 1).toNat
    String.ofList (whole ++ List.replicate ((lead + 1).toNat - ds.length) '0') ++ "." ++
      if rest.isEmpty then "0" else String.ofList rest

/-- The text of a 64-bit fraction. -/
def real (x : Float) : String :=
  if isFinite x then
    let b := Binary.ofBits x.toBits
    (if isNegative x then "-" else "") ++
      if b.mantissa = 0 then "0.0" else
        let (digits, power) := b.shortest
        layOut digits power
  else notFinite x

end Chip8.Decimal
