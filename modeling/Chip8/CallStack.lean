/-
The call stack: sixteen slots for return addresses and a pointer to the first free one. Neither
operation can run past the slots: a push on a full stack and a pop from an empty one are refused
and change nothing. A pop clears the slot it leaves, so the slots from the pointer on stay zero.
-/
import Chip8.Integer
import Chip8.Place

namespace Chip8

structure CallStack where
  slots : Vector UInt16 16
  pointer : Int

namespace CallStack

def empty : CallStack := ⟨Vector.replicate 16 0, 0⟩

/-- Writes the slot a place names; a place outside the slots drops the address. -/
def store (slots : Vector UInt16 16) (place : Int) (a : UInt16) : Vector UInt16 16 :=
  match Place.cell? 16 place with
  | some k => Place.put slots k a
  | none => slots

/-- Adds a return address, unless all slots are in use. -/
def push? (s : CallStack) (a : UInt16) : Option CallStack :=
  if 16 ≤ s.pointer then none else some ⟨store s.slots s.pointer a, s.pointer + 1⟩

/-- Takes the latest return address off, unless there is none. -/
def pop? (s : CallStack) : Option (CallStack × UInt16) :=
  if s.pointer ≤ 0 then none
  else
    let top := s.pointer - 1
    some (⟨store s.slots top 0, top⟩, s.slots.get (Place.nearest 15 top))

/-- The return addresses on the stack, oldest first. -/
def entries (s : CallStack) : List UInt16 := s.slots.toList.take (Place.cut 16 s.pointer)

/-- The stack that holds the given addresses, oldest first, in its lowest slots. -/
def ofList (as : List UInt16) : CallStack :=
  ⟨Vector.ofFn fun k => as.getD k.val 0, as.length⟩

end CallStack

end Chip8
