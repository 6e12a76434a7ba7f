import Graft.Edit.Basic

/-!
# Editing the instructions of a body

Positions count the instructions of the body as they are; a handle stays with its instruction while
the list moves around it. Everything is checked before anything changes, and after each change the
declared stack depth is raised if the body now needs more.
-/

namespace Graft

namespace LiveBody

/-- The handles at positions `first` to `last`. -/
def span (b : LiveBody) (first last : Nat) : List InsnId :=
  (b.code.drop first).take (last + 1 - first)

/-- The body without positions `first` to `last`. -/
def without (b : LiveBody) (first last : Nat) : LiveBody :=
  { b with code := b.code.take first ++ b.code.drop (last + 1) }

/-- The body with one handle in the place of another, also as a marker. -/
def replace (b : LiveBody) (position : Nat) (follow : InsnId → InsnId) (new : InsnId) : LiveBody :=
  { b with code := b.code.set position new, ranges := b.ranges.map (·.mapLabels follow) }

end LiveBody

namespace Module

variable (m : Module)

/-- Positions `first` to `last` must be positions of the body in this order. -/
def checkRemovable (k : MethodId) (b : LiveBody) (first last : Nat) : Except Fault Unit :=
  if b.code.length ≤ last then .error (.positionOutOfRange (m.methodName k) last b.code.length)
  else if last < first then .error (.positionOutOfRange (m.methodName k) first b.code.length)
  else .ok ()

/-- No instruction outside of positions `first` to `last` may jump to one of the removed. -/
def checkNoJumpsInto (k : MethodId) (b : LiveBody) (first last : Nat) (removed : List InsnId) :
    Except Fault Unit :=
  b.code.zipIdx.forM fun (id, p) =>
    if first ≤ p ∧ p ≤ last then .ok ()
    else
      match (m.instruction? id).bind fun i => i.targets.find? removed.contains with
      | some target => .error (.danglingBranch (m.methodName k) p target)
      | none => .ok ()

/-- Does the exception range survive? It does if it loses no marker, and goes if it loses all of
them; between the two is a fault. -/
def survives (k : MethodId) (removed : List InsnId) (r : ExceptionRange InsnId) (index : Nat) :
    Except Fault Bool :=
  if r.markers.all removed.contains then .ok false
  else if r.markers.any removed.contains then .error (.danglingRange (m.methodName k) index)
  else .ok true

/-- The exception ranges that survive. -/
def survivors (k : MethodId) (b : LiveBody) (removed : List InsnId) :
    Except Fault (List (ExceptionRange InsnId)) := do
  let kept ← b.ranges.zipIdx.mapM fun (r, i) => do
    return if ← m.survives k removed r i then some r else none
  return kept.filterMap id

end Module

namespace Edit

/-- Insert an instruction so that it ends up at the position. Its jump targets are already in the
body; whether control reaches it is not asked. -/
def insertAt (k : MethodId) (position : Nat) (i : Instruction InsnId) : Edit InsnId := do
  let b ← start k
  check (·.checkPosition k b position)
  check (·.checkPlacement k b position i)
  let ids ← alloc k [i]
  setBody k (b.insert position ids)
  finish k
  return ids.headD default

/-- Add instructions behind the last one. Their jump targets are already in the body. -/
def append (k : MethodId) (code : List (Instruction InsnId)) : Edit (List InsnId) := do
  let b ← start k
  let length := b.code.length
  check fun m => code.zipIdx.forM fun (i, offset) => m.checkPlacement k b (length + offset) i
  let ids ← alloc k code
  setBody k (b.insert length ids)
  finish k
  return ids

/-- Remove the instructions at positions `first` to `last`. No instruction that stays may jump to
one of them; exception ranges that lose all their markers go with them. -/
def removeRange (k : MethodId) (first last : Nat) : Edit (List InsnId) := do
  let b ← start k
  check (·.checkRemovable k b first last)
  let removed := b.span first last
  check (·.checkNoJumpsInto k b first last removed)
  let ranges ← check (·.survivors k b removed)
  setBody k { b.without first last with ranges }
  release removed
  finish k
  return removed

/-- Put a new instruction in the place of the one at the position. Jumps and markers that referred
to the old instruction follow to the new one. -/
def replaceAt (k : MethodId) (position : Nat) (i : Instruction InsnId) : Edit InsnId := do
  let b ← start k
  let old ← check (·.handleAt k b position)
  check (·.checkPlacement k b position i)
  let ids ← alloc k [i]
  let new := ids.headD default
  let follow (l : InsnId) : InsnId := if l = old then new else l
  let b := b.replace position follow new
  setBody k b
  release [old]
  modifyInstructions b.code (·.mapLabels follow)
  finish k
  return new

/-- Change what a handle of the body stands for. -/
def assign (k : MethodId) (id : InsnId) (i : Instruction InsnId) : Edit Unit := do
  let b ← start k
  match b.positionOf? id with
  | none => check fun m => .error (.notInBody (m.methodName k) id)
  | some position =>
    check (·.checkPlacement k b position i)
    modifyInstructions [id] fun _ => i
    finish k

/-- Change what the handle at a position stands for. -/
def assignAt (k : MethodId) (position : Nat) (i : Instruction InsnId) : Edit Unit := do
  let b ← start k
  let id ← check (·.handleAt k b position)
  assign k id i

end Edit

end Graft
