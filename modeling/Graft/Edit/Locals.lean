import Graft.Edit.Basic
import Graft.Module.Load

/-!
# Locals and the declared stack depth
-/

namespace Graft

namespace Module

variable (m : Module)

/-- There must be an index left for another local. -/
def checkLocalsLeft (k : MethodId) (b : LiveBody) : Except Fault Unit :=
  if b.locals.length < maxLocals then .ok () else .error (.localsOverflow (m.methodName k))

/-- The type of a local of a method. -/
def localType? (k : MethodId) (index : Nat) : Option TypeSig :=
  ((m.body? k).bind fun b => b.locals[index]?).map LocalSlot.type

/-- The type of the field that an instruction accesses. -/
def accessedType? {L : Type} (i : Instruction L) : Option TypeSig :=
  (i.field?.bind m.field?).map FieldDef.type

end Module

/-- The body with one more local. From now on locals start as zero, since code that is put into a
body may read the new one before it writes it. -/
def LiveBody.withLocal (b : LiveBody) (type : TypeSig) : LiveBody :=
  { b with locals := b.locals ++ [⟨.ofNat b.locals.length, type⟩], initLocals := true }

namespace Edit

/-- Add a local. -/
def addLocal (k : MethodId) (type : TypeSig) : Edit UInt16 := do
  let b ← start k
  check (·.checkOperandType type)
  check (·.checkLocalsLeft k b)
  setBody k (b.withLocal type)
  return .ofNat b.locals.length

/-- Declare how deep the stack gets. Later edits may raise it and never lower it. -/
def declareMaxStack (k : MethodId) (depth : UInt16) : Edit Unit := do
  let b ← start k
  setBody k { b with maxStack := depth }

end Edit

end Graft
