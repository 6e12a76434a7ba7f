import Graft.Fragment
import Graft.Verify

/-!
# Edits

An edit changes a module and gives a value or a fault. The module is there afterwards in either
case, as the edit has left it. Edits are put together from steps that check and steps that change;
those that change cannot fail.
-/

namespace Graft

/-- A change of a module that may fail. -/
abbrev Edit (α : Type) := ExceptT Fault (StateM Module) α

namespace Edit

variable {α : Type}

/-- The value or the fault of an edit, and the module it leaves behind. -/
def apply (e : Edit α) (m : Module) : Except Fault α × Module := e.run.run m

/-- Ask a question that may fail; nothing changes. -/
def check (f : Module → Except Fault α) : Edit α := fun m => (f m, m)

/-- Change the module. -/
def update (f : Module → Module) : Edit Unit := fun m => (.ok (), f m)

/-- Begin with the body of a method: it must have one, and counts as touched from now on. -/
def start (k : MethodId) : Edit LiveBody := do
  let b ← check (·.body k)
  update (·.touch k)
  return b

/-- Store instructions for the body of a method; they are not in the body yet. -/
def alloc (k : MethodId) (code : List (Instruction InsnId)) : Edit (List InsnId) := fun m =>
  (.ok (m.arena.nextIds code.length), { m with arena := m.arena.append k code })

/-- Put a body into a method. -/
def setBody (k : MethodId) (b : LiveBody) : Edit Unit := update (·.setBody k b)

/-- Take handles away from their owners. -/
def release (ids : List InsnId) : Edit Unit :=
  update fun m => { m with arena := m.arena.releaseAll ids }

/-- Change the instructions of handles. -/
def modifyInstructions (ids : List InsnId) (f : Instruction InsnId → Instruction InsnId) :
    Edit Unit :=
  update fun m => { m with arena := m.arena.modifyAll ids f }

/-- End an edit of a body: raise its declared stack depth if it now needs more. -/
def finish (k : MethodId) : Edit Unit := update (·.raiseMaxStack k)

end Edit

namespace LiveBody

/-- Put handles in front of a position. -/
def insert (b : LiveBody) (position : Nat) (ids : List InsnId) : LiveBody :=
  { b with code := b.code.take position ++ ids ++ b.code.drop position }

end LiveBody

namespace Module

variable (m : Module)

/-- The position must be one of the body, or right behind it. -/
def checkPosition (k : MethodId) (b : LiveBody) (position : Nat) : Except Fault Unit :=
  if position ≤ b.code.length then .ok ()
  else .error (.positionOutOfRange (m.methodName k) position b.code.length)

/-- The handle at a position, which must be one of the body. -/
def handleAt (k : MethodId) (b : LiveBody) (position : Nat) : Except Fault InsnId :=
  match b.code[position]? with
  | some id => .ok id
  | none => .error (.positionOutOfRange (m.methodName k) position b.code.length)

/-- An instruction that is to stand at a position of the body must mention only what is there. -/
def checkPlacement (k : MethodId) (b : LiveBody) (position : Nat) (i : Instruction InsnId) :
    Except Fault Unit := do
  m.checkOperands k b.locals.length i
  m.checkTargets k b position i

end Module

end Graft
