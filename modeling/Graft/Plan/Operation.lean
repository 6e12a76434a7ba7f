import Graft.Edit.Whole

/-!
# Operations of a plan

What a line of a plan asks for. Types, methods and fields are named; they are looked up when the
operation is applied. Of several methods with one name the first one declared is meant.
-/

namespace Graft.Plan

/-- A method, by the qualified name of its type and its own name. -/
structure MethodRef where
  type : String
  name : String
  deriving DecidableEq, Repr

/-- The text of a reference. -/
def MethodRef.text (r : MethodRef) : String := memberName r.type r.name

/-- An instruction in a plan. -/
inductive PlanInstruction where
  /-- An instruction as it is put into a body. -/
  | plain (i : Instruction InsnId)
  | call (isVirtual : Bool) (callee : MethodRef)
  /-- Construct an instance of the named type without arguments. -/
  | construct (type : String)
  | field (access : FieldAccess) (type name : String)
  deriving DecidableEq, Repr

/-- The form of a call in a plan. -/
def callForm (isVirtual : Bool) : CallForm := if isVirtual then .virtual else .direct

namespace PlanInstruction

/-- The name of an instruction. -/
def mnemonic : PlanInstruction → String
  | plain i => i.mnemonic
  | call isVirtual _ => (callForm isVirtual).mnemonic
  | construct _ => CallForm.construct.mnemonic
  | field access _ _ => access.mnemonic

end PlanInstruction

/-- An operation on a module. -/
inductive Operation where
  | setReturn (target : MethodRef) (value : Literal String)
  | makePublic (target : MethodRef)
  | injectCall (target callee : MethodRef)
  | removeRange (target : MethodRef) (first last : Nat)
  | pad (target : MethodRef) (position count : Nat)
  /-- Declare a copy of a method, signature and body, on the same type. -/
  | cloneMethod (template : MethodRef) (name : String)
  | insert (target : MethodRef) (position : Nat) (i : PlanInstruction)
  | replace (target : MethodRef) (position : Nat) (i : PlanInstruction)
  /-- Copy positions `first` to `last` of the source to a position of the target. -/
  | copyRange (target source : MethodRef) (first last position : Nat)
  deriving DecidableEq, Repr

namespace Operation

/-- How an operation is called in reports. -/
def name : Operation → String
  | setReturn target _ => "set-return " ++ target.text
  | makePublic target => "make-public " ++ target.text
  | injectCall target callee => "inject-call " ++ target.text ++ " -> " ++ callee.text
  | removeRange target first last =>
    "remove-range " ++ target.text ++ " " ++ toString first ++ "..=" ++ toString last
  | pad target position count =>
    "pad " ++ target.text ++ " " ++ toString position ++ " x" ++ toString count
  | cloneMethod template name => "clone-method " ++ template.text ++ " as " ++ name
  | insert target position i =>
    "insert " ++ target.text ++ " " ++ toString position ++ " " ++ i.mnemonic
  | replace target position i =>
    "replace " ++ target.text ++ " " ++ toString position ++ " " ++ i.mnemonic
  | copyRange target source first last position =>
    "copy-range " ++ source.text ++ " " ++ toString first ++ "..=" ++ toString last ++ " -> "
      ++ target.text ++ " " ++ toString position

end Operation

/-! ## Looking up what an operation names -/

/-- The method that a reference means. -/
def MethodRef.resolve {β : Type} (t : Tables Members β) (r : MethodRef) :
    Except Fault MethodId := do
  t.requireMethod (← t.requireType r.type) r.name

/-- The instruction that a plan means, for a body of the module. -/
def PlanInstruction.resolve {β : Type} (t : Tables Members β) :
    PlanInstruction → Except Fault (Instruction InsnId)
  | plain i => .ok i
  | call isVirtual callee => do return .call (callForm isVirtual) (← callee.resolve t)
  | construct type => do return .call .construct (← t.requireConstructor (← t.requireType type))
  | field access type name => do
    return .field access (← t.requireField (← t.requireType type) name)

end Graft.Plan

namespace Graft.Edit

open Graft.Plan

/-- Ask the tables a question that may fail. -/
def ask {α : Type} (f : Tables Members LiveBody → Except Fault α) : Edit α :=
  check fun m => f m.toTables

/-- Make a method public. -/
def makePublic (k : MethodId) : Edit Unit :=
  update fun m => m.modifyMethod k fun d => { d with flags := d.flags.makePublic }

/-- Declare a copy of a method on its type, with a copy of its body if it has one. -/
def cloneMethod (owner : TypeId) (template : MethodId) (name : String) : Edit Unit := do
  let k ← cloneSignature owner template name
  if ((← get).body? template).isSome then discard (copyBody template k)

/-- Do what an operation asks for. -/
def operation : Operation → Edit Unit
  | .setReturn target value => do
    let k ← ask target.resolve
    let value ← ask fun t => value.resolve t
    discard (returnLiteral k value)
  | .makePublic target => do
    makePublic (← ask target.resolve)
  | .injectCall target callee => do
    let k ← ask target.resolve
    let callee ← ask callee.resolve
    discard (injectCall k callee)
  | .removeRange target first last => do
    discard (removeRange (← ask target.resolve) first last)
  | .pad target position count => do
    discard (pad (← ask target.resolve) position count)
  | .cloneMethod template name => do
    let owner ← ask fun t => t.requireType template.type
    let k ← ask fun t => t.requireMethod owner template.name
    cloneMethod owner k name
  | .insert target position i => do
    let k ← ask target.resolve
    let i ← ask fun t => i.resolve t
    discard (insertAt k position i)
  | .replace target position i => do
    let k ← ask target.resolve
    let i ← ask fun t => i.resolve t
    discard (replaceAt k position i)
  | .copyRange target source first last position => do
    let k ← ask target.resolve
    let source ← ask source.resolve
    discard (copyRange k source first last position)

end Graft.Edit
