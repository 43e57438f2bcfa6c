/-
Program images and how they get into memory. An image arrives as bytes, as a table of numbers that
wrap to bytes, or as any other value, of which a list has to hold bytes exactly and a bare number
stands for so many zeros. What has become bytes has to fit from 0x200 on; a failed load leaves the
machine as it was.

All items of a table are held alike. Integers of 64 bits wrap modulo 256. With a fraction among
them, or with some that need the sign bit and some that do not, all numbers are held as fractions.
With a text among them all are held as texts, and otherwise each item is a byte of its own.
-/
import Chip8.Number
import Chip8.State

namespace Chip8

inductive Payload where
  | bytes (data : List UInt8)
  /-- One byte so many times. -/
  | run (b : UInt8) (count : Nat)
  /-- The items of a table, the last axis of its shape running fastest. -/
  | table (shape : List Nat) (items : List Datum)
  | value (d : Datum)

namespace Payload

def itemByte (d : Datum) : Except Error UInt8 :=
  match d.int? with
  | none => .error .notBytes
  | some n => if 0 ≤ n ∧ n < 256 then .ok (UInt8.ofInt n) else .error .byteOutOfRange

/-- The greatest length of a row of bytes. -/
def lengthLimit : Int := 0x7FFFFFFFFFFFFFDE

/-- The length from which on no memory holds a row of bytes. -/
def memoryLimit : Int := 0x4000000000

/-- One byte so many times. A number too large for the machine is refused before they are laid
out. -/
def repeated (b : UInt8) (count : Nat) : Except Error (List UInt8) :=
  if Memory.programRoom < count then .error (.programTooLarge count)
  else .ok (List.replicate count b)

def zeros (n : Int) : Except Error (List UInt8) :=
  if !fits64 n || lengthLimit < n then .error .integerTooWide
  else if n < 0 then .error .negativeLength
  else if memoryLimit ≤ n then .error .outOfMemory
  else repeated 0 n.toNat

/-- The bytes of a value that is not a table. -/
def valueBytes : Datum → Except Error (List UInt8)
  | .list items => items.mapM itemByte
  | .bool b => zeros (if b then 1 else 0)
  | .int n => zeros n
  | .record [] => .ok []
  | _ => .error .notBytes

/-! ## Tables -/

/-- An integer that 64 bits hold, with or without a sign. -/
def fitsWord (n : Int) : Bool := fits64 n || (0 ≤ n && n < 0x10000000000000000)

/-- Whether an item is a number of a size that a table holds. -/
def isNumber : Datum → Bool
  | .bool _ | .real _ => true
  | .int n => fitsWord n
  | _ => false

/-- Whether an item is a text, or is held as one beside a text. -/
def isTextual : Datum → Bool
  | .text _ => true
  | d => isNumber d

def isReal : Datum → Bool
  | .real _ => true
  | _ => false

/-- Whether an item is an integer that 64 bits hold without a sign only. -/
def isUnsigned : Datum → Bool
  | .int n => !fits64 n
  | _ => false

def isSigned : Datum → Bool
  | .int n => fits64 n
  | _ => false

/-- The byte of a whole part, which counts as far as 32 bits reach. -/
def shortByte (n : Int) : UInt8 := if fits32 n then UInt8.ofInt n else 0

/-- The byte of a number held as a fraction. -/
def fractionByte : Datum → UInt8
  | .real x => if Decimal.isFinite x then shortByte (Decimal.wholePart x) else 0
  | d => shortByte (d.int?.getD 0)

/-- The byte of an item held as a text, as which only whole numbers can be read again. -/
def textByte : Datum → Except Error UInt8
  | .text s => do Datum.exactByte (← Datum.spelled s)
  | .int n => Datum.exactByte n
  | _ => .error .unreadable

def tableBytes (items : List Datum) : Except Error (List UInt8) :=
  if items.all isNumber then
    if items.any isReal || (items.any isUnsigned && items.any isSigned) then
      .ok (items.map fractionByte)
    else .ok (items.map fun d => UInt8.ofInt (d.int?.getD 0))
  else if items.all isTextual then items.mapM textByte
  else items.mapM Datum.byte

def toBytes : Payload → Except Error (List UInt8)
  | bytes data => .ok data
  | run b count => repeated b count
  | table _ items => tableBytes items
  | value d => valueBytes d

/-- Whether the bytes of an image lie in one row. -/
def isFlat : Payload → Bool
  | table (_ :: _ :: _) _ => false
  | _ => true

/-- The number of items an image has by itself; a bare number has none. -/
def length? : Payload → Option Nat
  | bytes data => some data.length
  | run _ count => some count
  | table shape _ => shape.head?
  | value (.list items) => some items.length
  | value (.record fields) => some fields.length
  | value (.text s) => some s.length
  | value _ => none

/-! ## Making images -/

/-- The table of nested lists, which have to be of one length in each depth. -/
def ofTable (d : Datum) : Except Error Payload :=
  match d.shape? with
  | some shape => .ok (.table shape d.leaves)
  | none => .error .ragged

/-- The image of one byte a number of times; a negative number counts as none. -/
def ofRun (b count : Datum) : Except Error Payload := do
  let b ← itemByte b
  match count.int? with
  | none => .error .notBytes
  | some n =>
    if !fits64 n then .error .integerTooWide
    else if memoryLimit ≤ n then .error .outOfMemory
    else .ok (.run b n.toNat)

end Payload

namespace State

/-- Writes an image into memory from 0x200 on. -/
def load (s : State) (p : Payload) : Except Error State :=
  match p.toBytes with
  | .error e => .error e
  | .ok image =>
    if Memory.programRoom < image.length then .error (.programTooLarge image.length)
    else if p.isFlat || image.isEmpty then
      .ok { s with memory := s.memory.writeAll Memory.programStart image }
    else .error .tableShape

end State

end Chip8
