/-
Colour schemes by name.
-/
import Chip8.Picture

namespace Chip8

/-- The colours of the cells that are on and of those that are off. -/
structure Scheme where
  name : String
  on : Rgb
  off : Rgb

namespace Scheme

/-- The schemes there are, the default first. -/
def all : List Scheme :=
  [⟨"classic", ⟨0, 255, 0⟩, ⟨0, 0, 0⟩⟩,
   ⟨"light", ⟨0, 0, 0⟩, ⟨255, 255, 255⟩⟩,
   ⟨"amber", ⟨255, 176, 0⟩, ⟨0, 0, 0⟩⟩,
   ⟨"white", ⟨255, 255, 255⟩, ⟨0, 0, 0⟩⟩,
   ⟨"blue", ⟨0, 255, 255⟩, ⟨0, 0, 64⟩⟩,
   ⟨"retro", ⟨255, 255, 0⟩, ⟨64, 0, 64⟩⟩]

def defaultName : String := "classic"

/-- The scheme of a name. -/
def named (name : String) : Except Error Scheme :=
  match all.find? (·.name == name) with
  | some s => .ok s
  | none => .error (.unknownScheme name (all.map (·.name)))

end Scheme

end Chip8
