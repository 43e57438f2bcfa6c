/-
The entries that the events of a machine's life leave in the log.
-/
import Chip8.Log.Console
import Chip8.Text.Hex
import Chip8.Text.Lines
import Chip8.Text.Plain

namespace Chip8.Log

def debug (text : String) : Entry := ⟨"DEBUG", text⟩

def info (text : String) : Entry := ⟨"INFO", text⟩

def warning (text : String) : Entry := ⟨"WARNING", text⟩

def error (text : String) : Entry := ⟨"ERROR", text⟩

def critical (text : String) : Entry := ⟨"CRITICAL", text⟩

/-- The settings of a new machine. -/
def configuration (settings : List (String × Datum)) : List Entry :=
  info "Machine configuration:" ::
    settings.map fun (name, value) => info ("  " ++ name ++ ": " ++ Plain.text value)

def machineReset : Entry := info "Machine reset"

/-- A program from a first to a last address, with its size as it is shown. -/
def programAt (size : String) (first last : Int) : Entry :=
  info ("Loaded " ++ size ++ " bytes at 0x" ++ Hex.ofInt 3 first ++ "-0x" ++ Hex.ofInt 3 last)

/-- A program of so many bytes, from an address on. An empty program still names that address. -/
def programLoaded (size start : Int) : Entry :=
  programAt (toString size) start (start + max size 1 - 1)

/-- A program whose size and address are loosely typed. Only a size below 1 may be a fraction. -/
def programLoadedOf (size start : Datum) : Except Error Entry :=
  match start, start.int? with
  | _, some a => match size, size.int? with
    | _, some n => .ok (programAt (Plain.text size) a (a + max n 1 - 1))
    | .real x, none => if x < 1 then .ok (programAt (Plain.text size) a a) else .error .unreadable
    | _, none => .error .notNumber
  | .real _, none | .text _, none => .error .unreadable
  | _, none => .error .notNumber

/-- A table of the state, line by line. -/
def stateTable (table : String) : List Entry := (Lines.split table).map debug

/-- A fault, with the table of the state that led to it, if there is one. -/
def fault (text : String) (table : Option String) : List Entry :=
  error text :: match table with
    | some t => (Lines.split t).map fun line => error ("  " ++ line)
    | none => []

end Chip8.Log
