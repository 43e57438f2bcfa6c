/-
Keys from loosely typed values: one key by its number, and the state of the whole keypad, a row of
sixteen items each of which is down if it counts as true. Anything of another shape is refused with
that shape.
-/
import Chip8.Datum
import Chip8.Error
import Chip8.Keypad

namespace Chip8.Keypad

/-- The key of a number. Only an integer names a key, but any number may lie outside of all keys. -/
def keyOfDatum : Datum → Except Error (Fin 16)
  | .int n =>
    if n < 0 then .error (.keyOutOfRange (.int n))
    else match Place.cell? 16 n with
      | some key => .ok key
      | none => .error (.keyOutOfRange (.int n))
  | .real x => if 0 ≤ x && x < 16 then .error .notNumber else .error (.keyOutOfRange (.real x))
  | _ => .error .notNumber

/-- The keypad a value describes. -/
def ofDatum (d : Datum) : Except Error Keypad :=
  if d.hasNull then .error .missing
  else match d.shape? with
    | none => .error .ragged
    | some shape =>
      if shape = [16] then
        .ok (Vector.ofFn fun k => (d.leaves.getD k .null).isTrue)
      else .error (.keypadShape shape)

end Chip8.Keypad
