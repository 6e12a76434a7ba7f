import Graft.Arena
import Graft.Lookup

/-!
# Modules

A module being edited: its tables, with bodies that hold handles of instructions, the arena that the
handles stand for, and the methods that were touched since somebody last asked.
-/

namespace Graft

/-- A local of a body being edited. -/
structure LocalSlot where
  index : UInt16
  type : TypeSig
  deriving DecidableEq, Repr, Inhabited

/-- A body being edited: numbered locals, handles in order, labels as handles. -/
abbrev LiveBody := Body LocalSlot InsnId InsnId

/-- A module being edited. -/
structure Module extends Tables Members LiveBody where
  arena : Arena
  /-- The methods whose bodies were touched, in table order and without repetitions. -/
  touched : List MethodId
  deriving DecidableEq, Repr

namespace Module

/-- A module with nothing in it. -/
def new (name : String) : Module where
  toTables := .empty name
  arena := Arena.empty
  touched := []

variable (m : Module)

/-! ## Bodies -/

/-- The body of a method, if it has one. -/
def body? (k : MethodId) : Option LiveBody := (m.method? k).bind Method.body

/-- The body of a method, which must have one. -/
def body (k : MethodId) : Except Fault LiveBody :=
  match m.body? k with
  | some b => .ok b
  | none => .error (.noBody (m.methodName k))

/-- Change the entry of a method. -/
def modifyMethod (k : MethodId) (f : Method LiveBody → Method LiveBody) : Module :=
  { m with methods := m.methods.modify k.index f }

/-- Change the body of a method. -/
def setBody (k : MethodId) (b : LiveBody) : Module := m.modifyMethod k ({ · with body := some b })

/-- The instruction of a handle. -/
def instruction? (id : InsnId) : Option (Instruction InsnId) := m.arena.get? id

/-! ## Touched methods -/

/-- Put a method into an ascending list that lacks it. -/
def insertId (k : MethodId) : List MethodId → List MethodId
  | [] => [k]
  | j :: rest =>
    if k.number < j.number then k :: j :: rest
    else if k = j then j :: rest
    else j :: insertId k rest

/-- Remember that the body of a method was touched. -/
def touch (k : MethodId) : Module := { m with touched := insertId k m.touched }

/-- Forget which methods were touched. -/
def clearTouched : Module := { m with touched := [] }

end Module

/-! ## Places in a body -/

namespace LiveBody

/-- The first position of a handle. -/
def positionOf? (b : LiveBody) (id : InsnId) : Option Nat := b.code.findIdx? (· = id)

/-- Is the handle in the body? -/
def contains (b : LiveBody) (id : InsnId) : Bool := b.code.contains id

end LiveBody

end Graft
