import Graft.Instruction

/-!
# The arena of instructions

All instructions of a module being edited are kept in one arena, each in a slot of its own. The
handle of an instruction is the number of its slot. Slots are only ever added, so a handle is never
given to a second instruction; a slot whose instruction leaves its body merely loses its owner.
-/

namespace Graft

/-- An instruction and the method whose body holds it, if one does. -/
structure Slot where
  instruction : Instruction InsnId
  owner : Option MethodId
  deriving DecidableEq, Repr

/-- The slots of a module. -/
structure Arena where
  slots : Array Slot
  deriving DecidableEq, Repr

namespace Arena

/-- The arena without slots. -/
def empty : Arena := ⟨#[]⟩

instance : Inhabited Arena := ⟨empty⟩

variable (a : Arena)

/-- How many slots there are. -/
def size : Nat := a.slots.size

/-- The slot of a handle. -/
def slot? (id : InsnId) : Option Slot := a.slots[id.index]?

/-- The instruction of a handle. -/
def get? (id : InsnId) : Option (Instruction InsnId) := (a.slot? id).map Slot.instruction

/-- The method whose body holds the handle. -/
def owner? (id : InsnId) : Option MethodId := (a.slot? id).bind Slot.owner

/-- Add instructions that belong to a method. -/
def append (owner : MethodId) (code : List (Instruction InsnId)) : Arena :=
  ⟨a.slots ++ code.map fun i => Slot.mk i (some owner)⟩

/-- The `n` handles that the next instructions get. -/
def nextIds (n : Nat) : List InsnId := (List.range n).map fun i => InsnId.ofIndex (a.size + i)

/-- Change the instruction of a handle. -/
def modify (id : InsnId) (f : Instruction InsnId → Instruction InsnId) : Arena :=
  ⟨a.slots.modify id.index fun s => { s with instruction := f s.instruction }⟩

/-- Change the instructions of several handles. -/
def modifyAll (ids : List InsnId) (f : Instruction InsnId → Instruction InsnId) : Arena :=
  ids.foldl (fun a id => a.modify id f) a

/-- Take a handle away from its owner; the instruction can still be read. -/
def release (id : InsnId) : Arena :=
  ⟨a.slots.modify id.index fun s => { s with owner := none }⟩

/-- Take handles away from their owners. -/
def releaseAll (ids : List InsnId) : Arena := ids.foldl release a

end Arena

end Graft
