/-
Loosely typed values taken for whole numbers. A truth value counts as 1 or 0, a fraction without
what stands behind its point, and a text as the number it spells. An integer is never cut to the
width of the place it is meant for, but a fraction or a text is, if 64 bits hold it.
-/
import Chip8.Datum
import Chip8.Integer
import Chip8.RandomKey

namespace Chip8.Datum

/-- An integer that 64 bits hold. -/
def within64 (n : Int) : Except Error Int := if fits64 n then .ok n else .error .integerTooWide

def truncate (x : Float) : Except Error Int :=
  if Decimal.isFinite x then .ok (Decimal.wholePart x)
  else if x.isNaN then .error .unreadable
  else .error .integerTooWide

def spelled (s : String) : Except Error Int :=
  match Decimal.readInt? s with
  | some n => .ok n
  | none => .error .unreadable

/-- A signed 32-bit integer. -/
def int32 : Datum → Except Error Int
  | null => .error .missing
  | bool b => .ok (if b then 1 else 0)
  | int n => narrow n
  | real x => do return (Int32.ofInt (← within64 (← truncate x))).toInt
  | text s => do return (Int32.ofInt (← within64 (← spelled s))).toInt
  | list _ | record _ => .error .notNumber

/-- An integer as a byte. -/
def exactByte (n : Int) : Except Error UInt8 :=
  if 0 ≤ n ∧ n < 256 then .ok (UInt8.ofInt n) else .error .integerTooWide

def byte : Datum → Except Error UInt8
  | bool b => .ok (if b then 1 else 0)
  | int n => exactByte n
  | real x => do return UInt8.ofInt (← within64 (← truncate x))
  | text s => do return UInt8.ofInt (← within64 (← spelled s))
  | list _ => .error .ragged
  | null | record _ => .error .notNumber

/-- A number of repetitions, which are counted in 32 bits; a negative number counts as none. -/
def times : Datum → Except Error Nat
  | bool b => .ok (if b then 1 else 0)
  | int n => do return (← narrow n).toNat
  | real x => do return (← narrow (← truncate x)).toNat
  | text s => do return (← narrow (← spelled s)).toNat
  | null | list _ | record _ => .error .unreadable

def randomKey : Datum → Except Error RandomKey
  | null => .error .missing
  | bool b => RandomKey.ofSeed (if b then 1 else 0)
  | int n => RandomKey.ofSeed n
  | real _ | text _ | list _ | record _ => .error .notNumber

end Chip8.Datum
