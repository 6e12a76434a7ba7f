import Graft.Module
import Graft.Positions

/-!
# Stack depths

What each instruction takes off the stack and puts on it, and the simulation that finds the depth of
the stack at every instruction that control can reach. The simulation starts at the first
instruction with an empty stack and at every entry point of an exception range. Each instruction is
visited with one depth only: a second way to it must come with the same depth.
-/

namespace Graft

/-- How many values an instruction takes off the stack and then puts on it. -/
structure StackEffect where
  pops : Nat
  pushes : Nat
  deriving DecidableEq, Repr

/-- The deepest that a stack may be. -/
def maxDepth : Nat := 65535

/-- The numbers of values are words of 16 bits: counts of arguments wrap around. -/
def countWrap : Nat := 65536

namespace Tables

variable {μ β : Type} (t : Tables μ β)

/-- Does the method give a value? -/
def givesValue (k : MethodId) : Bool := (t.method? k).any fun d => ! d.signature.result.isVoid

/-- The stack effect of a call. A construction takes the parameters only, since it makes the
receiver, and always gives it. -/
def callEffect (form : CallForm) (callee : MethodId) : StackEffect :=
  match form with
  | .construct =>
    let params := (t.method? callee).elim 0 fun d => d.signature.params.length
    ⟨params % countWrap, 1⟩
  | _ =>
    let arguments := (t.method? callee).elim 0 Method.argumentCount
    ⟨arguments % countWrap, if t.givesValue callee then 1 else 0⟩

/-- The stack effect of an instruction in the body of `k`. Calls go by the signature of the callee,
a return by the result of `k`. Emptying the stack comes on top of the effect. -/
def stackEffect {L : Type} (k : MethodId) : Instruction L → StackEffect
  | .nop => ⟨0, 0⟩
  | .ldnull => ⟨0, 1⟩
  | .ldcI4 _ => ⟨0, 1⟩
  | .ldcI8 _ => ⟨0, 1⟩
  | .ldcR4 _ => ⟨0, 1⟩
  | .ldcR8 _ => ⟨0, 1⟩
  | .ldstr _ => ⟨0, 1⟩
  | .arg .store _ => ⟨1, 0⟩
  | .arg _ _ => ⟨0, 1⟩
  | .loc .store _ => ⟨1, 0⟩
  | .loc _ _ => ⟨0, 1⟩
  | .dup => ⟨1, 2⟩
  | .pop => ⟨1, 0⟩
  | .arith _ => ⟨2, 1⟩
  | .neg => ⟨1, 1⟩
  | .not => ⟨1, 1⟩
  | .compare _ => ⟨2, 1⟩
  | .conv _ => ⟨1, 1⟩
  | .field .load _ => ⟨1, 1⟩
  | .field .loadAddress _ => ⟨1, 1⟩
  | .field .store _ => ⟨2, 0⟩
  | .field .loadStatic _ => ⟨0, 1⟩
  | .field .storeStatic _ => ⟨1, 0⟩
  | .call form callee => t.callEffect form callee
  | .typed .newArray _ => ⟨1, 1⟩
  | .typed .loadElement _ => ⟨2, 1⟩
  | .typed .storeElement _ => ⟨3, 0⟩
  | .typed .initObject _ => ⟨1, 0⟩
  | .typed _ _ => ⟨1, 1⟩
  | .ldlen => ⟨1, 1⟩
  | .br _ => ⟨0, 0⟩
  | .brIf _ _ => ⟨1, 0⟩
  | .brCmp _ _ => ⟨2, 0⟩
  | .switch _ => ⟨1, 0⟩
  | .leave _ => ⟨0, 0⟩
  | .ret => ⟨if t.givesValue k then 1 else 0, 0⟩
  | .throw => ⟨1, 0⟩
  | .rethrow => ⟨0, 0⟩
  | .endfinally => ⟨0, 0⟩

end Tables

namespace Simulation

/-! ## The search

The search is the same for every machine: from a position and a depth the machine says how deep the
stack gets there and which positions and depths follow. -/

/-- What a machine does at a position with a depth: the depth after the instruction, and what
follows, or a fault. -/
abbrev Machine := Nat → Nat → Except Fault (Nat × List (Nat × Nat))

/-- Visit pending positions, the first one first, until none is left; what follows a position comes
before what was pending, the last one first. `depths` holds the depths of the positions visited so
far, and `deepest` the deepest stack so far. Positions outside of `depths` are passed over. -/
def visit (machine : Machine) (clash : Nat → Nat → Nat → Fault) (depths : Array (Option Nat))
    (deepest : Nat) : List (Nat × Nat) → Except Fault Nat
  | [] => .ok deepest
  | (position, depth) :: pending =>
    if h : position < depths.size then
      match known : depths[position] with
      | some expected =>
        if expected = depth then visit machine clash depths deepest pending
        else .error (clash position expected depth)
      | none =>
        match machine position depth with
        | .error fault => .error fault
        | .ok (after, following) =>
          visit machine clash (depths.set position (some depth)) (max deepest (max depth after))
            (following.reverse ++ pending)
    else visit machine clash depths deepest pending
termination_by pending => (depths.count none, pending.length)
decreasing_by
  · exact Prod.Lex.right _ (by simp)
  · refine Prod.Lex.left _ _ ?_
    have inside : none ∈ depths := known ▸ Array.getElem_mem h
    have : 0 < depths.count none := Array.count_pos_iff.mpr inside
    rw [Array.count_set]
    simp [known]
    omega
  · exact Prod.Lex.right _ (by simp)

end Simulation

namespace Module

variable (m : Module)

/-- What an instruction in the body of `k` does to a stack of the given depth: the depth after it,
and the positions and depths that follow, jump targets first. -/
def stackStep (k : MethodId) (code : Array InsnId) (positions : Positions) : Simulation.Machine :=
  fun position depth => do
    let id := code.getD position default
    let some i := m.instruction? id | throw (.notInBody (m.methodName k) id)
    let effect := m.stackEffect k i
    if depth < effect.pops then throw (.stackUnderflow (m.methodName k) position)
    let after := depth - effect.pops + effect.pushes
    if maxDepth < after then throw (.stackOverflow (m.methodName k) position)
    let left := if i.emptiesStack then 0 else after
    let jumps ← i.targets.mapM fun target =>
      match positions.find? target with
      | some p => .ok (p, left)
      | none => .error (.danglingBranch (m.methodName k) position target)
    if i.fallsThrough then
      if code.size ≤ position + 1 then throw (.fallsOffEnd (m.methodName k) position)
      return (after, jumps ++ [(position + 1, left)])
    return (after, jumps)

/-- Where control enters the ranges of a body, and with which depths. -/
def rangeEntries (k : MethodId) (positions : Positions) (b : LiveBody) :
    Except Fault (List (Nat × Nat)) := do
  let entries ← b.ranges.zipIdx.mapM fun (r, i) =>
    r.entryPoints.mapM fun (id, depth) =>
      match positions.find? id with
      | some p => .ok (p, depth)
      | none => .error (.danglingRange (m.methodName k) i)
  return entries.flatten

/-- The deepest that the stack gets on any path through the body of `k`. -/
def simulate (k : MethodId) : Except Fault Nat := do
  let b ← m.body k
  if b.code.isEmpty then throw (.emptyBody (m.methodName k))
  let positions := Positions.ofList b.code
  let entries ← m.rangeEntries k positions b
  let code := b.code.toArray
  Simulation.visit (m.stackStep k code positions) (.stackMismatch (m.methodName k))
    (Array.replicate code.size none) 0 ((0, 0) :: entries).reverse

/-- Raise the declared depth of a body to what the simulation needs. It is never lowered, and a body
that does not simulate, perhaps because it is still being put together, is left alone. -/
def raiseMaxStack (k : MethodId) : Module :=
  match m.body? k, m.simulate k with
  | some b, .ok required => m.setBody k { b with maxStack := max b.maxStack (.ofNat required) }
  | _, _ => m

end Module

end Graft
