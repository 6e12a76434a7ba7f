import Graft.Id

/-!
# Signatures

The types of fields, locals, parameters and results. Built-in types have keywords; classes and
value types are entries of the type table.
-/

namespace Graft

/-- The built-in types. -/
inductive Primitive where
  | void | bool | char | sbyte | byte | short | ushort | int | uint | long | ulong
  | float | double | nint | string | object
  deriving DecidableEq, Repr

/-- The keyword of a built-in type. -/
def Primitive.keyword : Primitive → String
  | .void => "void"
  | .bool => "bool"
  | .char => "char"
  | .sbyte => "sbyte"
  | .byte => "byte"
  | .short => "short"
  | .ushort => "ushort"
  | .int => "int"
  | .uint => "uint"
  | .long => "long"
  | .ulong => "ulong"
  | .float => "float"
  | .double => "double"
  | .nint => "nint"
  | .string => "string"
  | .object => "object"

/-- The built-in types in the order of their keywords above. -/
def Primitive.all : List Primitive := [
  .void, .bool, .char, .sbyte, .byte, .short, .ushort, .int, .uint, .long, .ulong,
  .float, .double, .nint, .string, .object]

/-- A type in a signature or in an operand. -/
inductive TypeSig where
  | primitive (kind : Primitive)
  /-- A reference type of the type table. -/
  | classType (type : TypeId)
  /-- A value type of the type table. -/
  | valueType (type : TypeId)
  /-- An array with one dimension that starts at zero. -/
  | array (element : TypeSig)
  /-- A generic parameter of the type around. -/
  | typeParam (index : UInt16)
  /-- A generic parameter of the method around. -/
  | methodParam (index : UInt16)
  deriving DecidableEq, Repr

namespace TypeSig

instance : Inhabited TypeSig := ⟨.primitive .void⟩

/-- Is this the type of no value? -/
def isVoid (s : TypeSig) : Bool := s = .primitive .void

/-- The entry of the type table that the type is, if it is one. -/
def typeId? : TypeSig → Option TypeId
  | .classType t => some t
  | .valueType t => some t
  | _ => none

/-- The entry of the type table that the type mentions, also inside arrays. -/
def mentioned? : TypeSig → Option TypeId
  | .classType t => some t
  | .valueType t => some t
  | .array element => element.mentioned?
  | _ => none

/-- The text of a type, its table entries called by `name`. -/
def renderWith (name : TypeId → String) : TypeSig → String
  | .primitive kind => kind.keyword
  | .classType t => name t
  | .valueType t => name t
  | .array element => element.renderWith name ++ "[]"
  | .typeParam index => "!" ++ toString index.toNat
  | .methodParam index => "!!" ++ toString index.toNat

end TypeSig

/-- A parameter of a method. -/
structure Param where
  name : String
  type : TypeSig
  deriving DecidableEq, Repr, Inhabited

/-- What a method takes and gives. Whether there is a receiver besides the parameters is decided by
the method's flags. -/
structure MethodSig where
  result : TypeSig
  params : List Param
  /-- The names of the generic parameters. -/
  generics : List String
  deriving DecidableEq, Repr, Inhabited

/-- Do two signatures take and give the same types, whatever the parameters are called? -/
def MethodSig.sameShape (a b : MethodSig) : Bool :=
  a.result = b.result && a.generics.length = b.generics.length
    && a.params.map Param.type = b.params.map Param.type

end Graft
