/-
Loosely typed values, as a driver hands them in: program images, key snapshots and the values of
settings may have any of these forms, and it is for the machine to say which of them it takes.

A list is a table if its items have one shape; the shape of a table lists its lengths from the
outside in, at most 64 of them. What is not a list has the empty shape.
-/

namespace Chip8

inductive Datum where
  | null
  | bool (b : Bool)
  | int (n : Int)
  | real (x : Float)
  | text (s : String)
  | list (items : List Datum)
  /-- Named values, in order. -/
  | record (fields : List (String × Datum))

namespace Datum

/-- Whether a value counts as true: numbers that are not zero, and texts, lists and records that
are not empty. -/
def isTrue : Datum → Bool
  | null => false
  | bool b => b
  | int n => n != 0
  | real x => x != 0.0
  | text s => s != ""
  | list items => !items.isEmpty
  | record fields => !fields.isEmpty

/-- A number that is whole by its form; truth values count as 1 and 0. -/
def int? : Datum → Option Int
  | bool b => some (if b then 1 else 0)
  | int n => some n
  | _ => none

mutual

/-- Whether the value is null, or a null stands anywhere in a list. -/
def hasNull : Datum → Bool
  | null => true
  | list items => anyNull items
  | _ => false

def anyNull : List Datum → Bool
  | [] => false
  | d :: ds => d.hasNull || anyNull ds

end

/-- The most lengths in a shape. -/
def maxDepth : Nat := 64

/-- A shape, unless it is too long. -/
def shallow? (shape : List Nat) : Option (List Nat) :=
  if shape.length ≤ maxDepth then some shape else none

mutual

/-- The shape of a value; none for a list whose items differ in shape. -/
def shape? : Datum → Option (List Nat)
  | list [] => some [0]
  | list (d :: ds) => match d.shape? with
    | some inner => if allShape inner ds then shallow? ((ds.length + 1) :: inner) else none
    | none => none
  | _ => some []

def allShape (inner : List Nat) : List Datum → Bool
  | [] => true
  | d :: ds => d.shape? == some inner && allShape inner ds

end

mutual

/-- The values in a table, row by row. -/
def leaves : Datum → List Datum
  | list items => allLeaves items
  | d => [d]

def allLeaves : List Datum → List Datum
  | [] => []
  | d :: ds => d.leaves ++ allLeaves ds

end

end Datum

end Chip8
