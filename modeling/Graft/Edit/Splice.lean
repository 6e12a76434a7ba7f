import Graft.Edit.Basic

/-!
# Putting fragments into a body

A fragment becomes part of a body by getting handles of its own; its labels become these handles.
Its exception ranges go in front of those of the body, since they can only lie inside of them.
-/

namespace Graft

namespace Module

variable (m : Module)

/-- Padding must fit on top of the deepest point of the body: the simulated one, if the body
simulates, or the declared one if that is deeper. -/
def checkPadding (k : MethodId) (b : LiveBody) (position count : Nat) : Except Fault Unit :=
  let deepest := match m.simulate k with
    | .ok depth => max depth b.maxStack.toNat
    | .error _ => b.maxStack.toNat
  if count ≤ maxDepth - deepest then .ok ()
  else .error (.stackOverflow (m.methodName k) position)

end Module

namespace Edit

/-- Put a copy of a fragment into a body so that it starts at the position. Its instructions may
only use the slots, arguments and entries that are there. -/
def splice (k : MethodId) (position : Nat) (f : Fragment) : Edit (List InsnId) := do
  let b ← start k
  check (·.checkPosition k b position)
  check fun m => f.code.forM (m.checkOperands k b.locals.length)
  let first := (← get).arena.size
  let ids ← alloc k (f.instructions first)
  setBody k { b.insert position ids with ranges := f.liveRanges first ++ b.ranges }
  finish k
  return ids

/-- Put a copy of positions `first` to `last` of one body into another, or into the same. -/
def copyRange (k source : MethodId) (first last position : Nat) : Edit (List InsnId) := do
  discard (start k)
  let f ← check (·.extract source first last)
  splice k position f

/-- Put pushes and as many pops into a body, so that it needs that many more places on the stack
there. -/
def pad (k : MethodId) (position count : Nat) : Edit (List InsnId) := do
  let b ← start k
  check (·.checkPosition k b position)
  check (·.checkPadding k b position count)
  splice k position (.padding count)

end Edit

end Graft
