import Graft.Stack
import Std.Data.HashSet

/-!
# Verification

A body is in order if it is not empty, owns each of its instructions exactly once, mentions only
what exists, has every jump target and every marker of an exception range among its own
instructions, each range starting no later than it ends, and simulates within its declared stack
depth.
-/

namespace Graft

namespace Tables

variable {μ β : Type} (t : Tables μ β)

/-- The type of an edit must mention only types of the table. -/
def checkOperandType (s : TypeSig) : Except Fault Unit :=
  match t.missingType? s with
  | some id => .error (.malformed (.missingOperand (.type id)))
  | none => .ok ()

/-- The operands of an instruction in the body of `k`, which has so many locals: slots are in range
and entries exist. Jump targets are not looked at. -/
def checkOperands {L : Type} (k : MethodId) (locals : Nat) (i : Instruction L) :
    Except Fault Unit := do
  match i.loc? with
  | some index =>
    if locals ≤ index.toNat then throw (.localOutOfRange (t.methodName k) index locals)
  | none => pure ()
  match i.arg? with
  | some index =>
    let arguments := (t.method? k).elim 0 Method.argumentCount
    if arguments ≤ index.toNat then throw (.argumentOutOfRange (t.methodName k) index arguments)
  | none => pure ()
  match i.field? with
  | some id =>
    if t.fields.size ≤ id.index then throw (.malformed (.missingOperand (.field id)))
  | none => pure ()
  match i.method? with
  | some id =>
    if t.methods.size ≤ id.index then throw (.malformed (.missingOperand (.method id)))
  | none => pure ()
  match i.type? with
  | some s => t.checkOperandType s
  | none => pure ()

end Tables

namespace Module

variable (m : Module)

/-- Every jump target of the instruction at a position must be in the body. -/
def checkTargets (k : MethodId) (b : LiveBody) (position : Nat) (i : Instruction InsnId) :
    Except Fault Unit :=
  match i.targets.find? (! b.contains ·) with
  | some target => .error (.danglingBranch (m.methodName k) position target)
  | none => .ok ()

/-- Check an instruction and its position, `seen` being the handles before it: it is owned by the
method, stands nowhere before, and mentions only what is there. -/
def checkInstruction (k : MethodId) (b : LiveBody) (locals : Nat) (seen : Std.HashSet InsnId)
    (placed : InsnId × Nat) : Except Fault (Std.HashSet InsnId) := do
  let (id, position) := placed
  if m.arena.owner? id ≠ some k ∨ seen.contains id then
    throw (.ownedElsewhere (m.methodName k) id)
  let some i := m.instruction? id | throw (.notInBody (m.methodName k) id)
  m.checkOperands k locals i
  m.checkTargets k b position i
  return seen.insert id

/-- Check the instructions of a body in order. -/
def checkCode (k : MethodId) (b : LiveBody) : Except Fault Unit :=
  discard (b.code.zipIdx.foldlM (m.checkInstruction k b b.locals.length) ∅)

/-- The exception ranges of a body: every marker is in the body, and no region ends before it
starts. -/
def checkRanges (k : MethodId) (b : LiveBody) : Except Fault Unit :=
  b.ranges.zipIdx.forM fun (r, i) => do
    let dangling := Fault.danglingRange (m.methodName k) i
    let placed ← r.mapLabelsM fun marker =>
      match b.positionOf? marker with
      | some p => .ok p
      | none => .error dangling
    if placed.tryEnd < placed.tryStart ∨ placed.handlerEnd < placed.handlerStart then
      throw dangling

/-- Check the body of a method; the answer is the stack depth that it needs. -/
def verifyBody (k : MethodId) : Except Fault Nat := do
  let b ← m.body k
  if b.code.isEmpty then throw (.emptyBody (m.methodName k))
  m.checkCode k b
  m.checkRanges k b
  let required ← m.simulate k
  if b.maxStack.toNat < required then
    throw (.maxStackExceeded (m.methodName k) b.maxStack.toNat required)
  return required

/-- Check the bodies of the given methods, in order. -/
def verifyBodies (ks : List MethodId) : Except Fault Unit :=
  ks.forM fun k => discard (m.verifyBody k)

/-- Check all bodies of the module. -/
def verify : Except Fault Unit :=
  m.verifyBodies (m.methodIds.filter fun k => (m.body? k).isSome)

end Module

end Graft
