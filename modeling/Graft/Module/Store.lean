import Graft.Module.Load
import Graft.Positions

/-!
# Storing

From a module being edited to a file. What types list and the numbers of locals are left out, and
each handle becomes its position in its body; a branch or an exception range that mentions a handle
from elsewhere cannot be written.
-/

namespace Graft.Module

variable (m : Module)

/-- The body of a method as it stands in a file. -/
def fileBody (k : MethodId) (b : LiveBody) : Except Fault FileBody := do
  let positions := Positions.ofList b.code
  let position (fault : InsnId → Fault) (id : InsnId) : Except Fault UInt32 :=
    match positions.find? id with
    | some p => .ok (UInt32.ofNat p)
    | none => .error (fault id)
  let code ← b.code.zipIdx.mapM fun (id, p) =>
    match m.instruction? id with
    | some i => i.mapLabelsM (position fun target => .danglingBranch (m.methodName k) p target)
    | none => .error (.notInBody (m.methodName k) id)
  let ranges ← b.ranges.zipIdx.mapM fun (r, i) =>
    r.mapLabelsM (position fun _ => .danglingRange (m.methodName k) i)
  return { maxStack := b.maxStack, initLocals := b.initLocals
           locals := b.locals.map LocalSlot.type, code, ranges }

/-- A method as it stands in a file. -/
def fileMethod (k : MethodId) (d : Method LiveBody) : Except Fault (Method FileBody) :=
  match d.body with
  | none => .ok { d with body := none }
  | some b => do return { d with body := some (← m.fileBody k b) }

/-- The file of a module. -/
def toFile : Except Fault ModuleFile := do
  let methods ← m.methods.toList.zipIdx.mapM fun (d, i) => m.fileMethod (.ofIndex i) d
  return { version := ModuleFile.currentVersion, name := m.name, types := m.records
           fields := m.fields, methods := methods.toArray }

/-- The module with an arena that holds nothing but the instructions of its bodies. All handles
change; the touched methods stay remembered. -/
def compacted : Except Fault Module := do
  let file ← m.toFile
  let fresh ← file.load
  return { fresh with touched := m.touched }

end Graft.Module
