/-
Everything the library can refuse, by cause. A cause that concerns the machine's user carries a text
(`message?`); a cause that lies in the shape of a value handed in carries none.
-/
import Chip8.Fault
import Chip8.Text.Plain

namespace Chip8

inductive Error where
  /-- A program image of this many bytes does not fit between 0x200 and the end of memory. -/
  | programTooLarge (size : Nat)
  /-- There is no key of this number. -/
  | keyOutOfRange (key : Datum)
  /-- A key snapshot that is not a row of sixteen states, with the shape it has. -/
  | keypadShape (shape : List Nat)
  /-- The instruction at `pc` could not be completed. -/
  | machineFault (fault : Fault) (pc opcode : UInt16)
  /-- The fault latch holds a number that stands for no fault. -/
  | unknownFault (code : UInt8)
  /-- There is no colour scheme of this name; the names there are follow. -/
  | unknownScheme (name : String) (known : List String)
  /-- A number does not fit what it is held in: a colour component a byte, a seed or a length 64
  bits, a time a fraction, any other integer 32 bits. -/
  | integerTooWide
  /-- More bytes than any memory holds. -/
  | outOfMemory
  /-- A picture of more bytes than any memory holds. -/
  | noPictureRoom
  /-- A picture of more bytes than can be counted. -/
  | tooManyPixels
  /-- A colour has neither one nor three components. -/
  | componentCount
  /-- An element of a program image is an integer outside 0..255. -/
  | byteOutOfRange
  /-- A program image of negative length. -/
  | negativeLength
  /-- The value holds no bytes. -/
  | notBytes
  /-- The value has no length. -/
  | noLength
  /-- The value is of a kind that is no number. -/
  | notNumber
  /-- The value stands for no whole number, though others of its kind do. -/
  | unreadable
  /-- A table that does not fit the place it is written to. -/
  | tableShape
  /-- The rows of a table differ in shape. -/
  | ragged
  /-- There is a null where a value is needed. -/
  | missing
  /-- There is no setting of this name. -/
  | unknownSetting
  /-- A sprite without rows. -/
  | noRows
  /-- An option of a progress bar that the bar decides itself. -/
  | optionTaken

/-- A shape as it is written in a message: `()`, `(15,)`, `(1, 16)`. -/
def shapeText : List Nat → String
  | [] => "()"
  | [n] => "(" ++ toString n ++ ",)"
  | ns => "(" ++ ", ".intercalate (ns.map toString) ++ ")"

/-- The text for the machine's user, for the causes that have one. -/
def Error.message? : Error → Option String
  | programTooLarge size =>
    some ("Program is " ++ toString size ++ " bytes, at most 3584 fit at 0x200")
  | keyOutOfRange key => some ("Key must be in 0x0-0xF, got " ++ Plain.text key)
  | keypadShape shape => some ("Expected 16 key states, got shape " ++ shapeText shape)
  | machineFault fault pc opcode =>
    some (fault.reason ++ " at 0x" ++ Hex.ofNat 3 pc.toNat ++ " (opcode 0x" ++ Hex.ofNat 4 opcode.toNat ++ ")")
  | unknownScheme name known =>
    some ("Unknown color scheme '" ++ name ++ "'. Available: [" ++
      ", ".intercalate (known.map fun s => "'" ++ s ++ "'") ++ "]")
  | _ => none

end Chip8
