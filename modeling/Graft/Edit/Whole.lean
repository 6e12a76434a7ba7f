import Graft.Edit.Declare
import Graft.Edit.Locals
import Graft.Edit.Sequence
import Graft.Edit.Splice
import Graft.Literal

/-!
# Editing whole methods

Making a method return a value, copying the signature or the body of a method, and calling a method
at the entry of another.
-/

namespace Graft

/-! ## Checks -/

namespace Module

variable (m : Module)

/-- The value must have exactly the type that the method returns. -/
def checkReturns (k : MethodId) (value : Literal TypeId) : Except Fault Unit :=
  let expected := (m.method? k).elim default fun d => d.signature.result
  let found := value.type m.toTables
  if expected = found then .ok ()
  else .error (.returnTypeMismatch (m.methodName k) (m.renderType expected) (m.renderType found))

/-- Two methods must take and give the same types, and both or neither take a receiver. -/
def checkSameShape (source target : MethodId) : Except Fault Unit :=
  let same := match m.method? source, m.method? target with
    | some a, some b => a.signature.sameShape b.signature && a.isStatic == b.isStatic
    | _, _ => false
  if same then .ok ()
  else .error (.signatureMismatch (m.methodName source) (m.methodName target))

/-- The whole body of a method as a fragment, and what else there is to it: the body without
instructions and exception ranges. -/
def wholeBody (k : MethodId) : Except Fault (Fragment × LiveBody) := do
  let b ← m.body k
  if b.code.isEmpty then throw (.emptyBody (m.methodName k))
  let f ← m.extract k 0 (b.code.length - 1)
  return (f, { b with code := [], ranges := [] })

/-- The callee must take no parameters and be no constructor. -/
def checkInjectable (callee : MethodId) : Except Fault Unit :=
  if (m.method? callee).any fun d => d.signature.params.isEmpty && ! d.isConstructor then .ok ()
  else .error (.unsupportedCallee (m.methodName callee))

/-- How the receiver of a callee is made: the type of the local that holds it and the constructor;
none for a static callee. -/
def receiver? (callee : MethodId) : Except Fault (Option (TypeSig × MethodId)) :=
  match m.method? callee with
  | some d =>
    if d.isStatic then .ok none
    else do
      let constructor ← m.requireConstructor d.owner
      let byValue := (m.type? d.owner).any TypeDef.isValueType
      return some (if byValue then .valueType d.owner else .classType d.owner, constructor)
  | none => .ok none

end Module

/-- The instructions that make a receiver, keep it in a local and call a method on it. Values are
called through their address, instances of classes through their table of methods. -/
def receiverCall (type : TypeSig) (constructor : MethodId) (slot : UInt16) (callee : MethodId) :
    List (Instruction Empty) :=
  let access := match type with
    | .valueType _ => [.loc .loadAddress slot, .call .direct callee]
    | _ => [.loc .load slot, .call .virtual callee]
  .call .construct constructor :: .loc .store slot :: access

namespace Edit

/-- Throw away the body of a method and put another in its place, which holds no instructions. -/
def resetBody (k : MethodId) (fresh : LiveBody) : Edit Unit := do
  let b ← start k
  release b.code
  setBody k fresh

/-- Make a method do nothing but return a value. -/
def returnLiteral (k : MethodId) (value : Literal TypeId) : Edit (List InsnId) := do
  discard (check (·.body k))
  check (·.checkReturns k value)
  let push ← check fun m => value.push m.toTables
  resetBody k Body.empty
  append k [push, .ret]

/-- Declare a method like another, on a type, under a new name. The locals are copied, the
instructions are not. -/
def cloneSignature (owner : TypeId) (template : MethodId) (name : String) : Edit MethodId := do
  let m ← get
  let some d := m.method? template | check fun m => .error (.noBody (m.methodName template))
  let k ← addMethod owner name d.flags d.signature
  match d.body, (← get).body? k with
  | some b, some new => setBody k { new with locals := b.locals, initLocals := b.initLocals }
  | _, _ => pure ()
  return k

/-- Replace the body of a method by a copy of the body of another one of the same shape. -/
def copyBody (source target : MethodId) : Edit (List InsnId) := do
  check (·.checkSameShape source target)
  discard (check (·.body target))
  let (f, rest) ← check (·.wholeBody source)
  resetBody target rest
  splice target 0 f

/-- Call a method before anything else that the target does. The result is dropped. Jumps to what
was the first instruction do not run the call again. -/
def injectCall (target callee : MethodId) : Edit (List InsnId) := do
  discard (check (·.body target))
  check (·.checkInjectable callee)
  let receiver ← check (·.receiver? callee)
  let call ← match receiver with
    | none => pure [.call .direct callee]
    | some (type, constructor) => do
      let slot ← addLocal target type
      pure (receiverCall type constructor slot callee)
  let drop := if (← get).givesValue callee then [.pop] else []
  splice target 0 (.straight (call ++ drop))

end Edit

end Graft
