import Graft.Lookup

/-!
# Literals

The values that a method can be made to return. How the type of a constructed value is named is a
parameter: by its qualified name in a plan, by its index in a module.
-/

namespace Graft

/-- A value that can be written down. -/
inductive Literal (T : Type) where
  | str (text : String)
  | int (value : Int32)
  | bool (value : Bool)
  /-- A number of 32 bits, as its bits. -/
  | float (bits : UInt32)
  /-- A number of 64 bits, as its bits. -/
  | double (bits : UInt64)
  /-- A new instance of a type, made by its constructor without parameters. -/
  | fresh (type : T)
  deriving DecidableEq, Repr

namespace Literal

/-- The type of a value. -/
def type {μ β : Type} (t : Tables μ β) : Literal TypeId → TypeSig
  | str _ => .primitive .string
  | int _ => .primitive .int
  | bool _ => .primitive .bool
  | float _ => .primitive .float
  | double _ => .primitive .double
  | fresh id =>
    if (t.type? id).any TypeDef.isValueType then .valueType id else .classType id

/-- The instruction that pushes a value. -/
def push {β : Type} (t : Tables Members β) : Literal TypeId → Except Fault (Instruction InsnId)
  | str text => .ok (.ldstr text)
  | int value => .ok (.ldcI4 value)
  | bool value => .ok (.ldcI4 (if value then 1 else 0))
  | float bits => .ok (.ldcR4 bits)
  | double bits => .ok (.ldcR8 bits)
  | fresh id => do return .call .construct (← t.requireConstructor id)

/-- Look up the name of the type of a constructed value. -/
def resolve {β : Type} (t : Tables Members β) : Literal String → Except Fault (Literal TypeId)
  | str text => .ok (str text)
  | int value => .ok (int value)
  | bool value => .ok (bool value)
  | float bits => .ok (float bits)
  | double bits => .ok (double bits)
  | fresh name => do return .fresh (← t.requireType name)

end Literal

end Graft
