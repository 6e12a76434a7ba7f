import Graft.Codec.Basic
import Graft.ExceptionRange
import Graft.Flags

/-!
# Signatures, flags and exception ranges as bytes

A type starts with its tag. Flags are words of which only the bits with a meaning are accepted. An
exception range starts with a byte for its kind.
-/

namespace Graft

/-! ## Types -/

/-- The tag of a built-in type. -/
def Primitive.tag : Primitive → UInt8
  | .void => 0x01
  | .bool => 0x02
  | .char => 0x03
  | .sbyte => 0x04
  | .byte => 0x05
  | .short => 0x06
  | .ushort => 0x07
  | .int => 0x08
  | .uint => 0x09
  | .long => 0x0a
  | .ulong => 0x0b
  | .float => 0x0c
  | .double => 0x0d
  | .string => 0x0e
  | .nint => 0x18
  | .object => 0x1c

/-- The built-in type with the tag. -/
def Primitive.ofTag? (tag : UInt8) : Option Primitive := Primitive.all.find? (·.tag = tag)

namespace TypeSig

def encode : TypeSig → List UInt8
  | primitive kind => [kind.tag]
  | valueType t => 0x11 :: Codec.encodeTypeId t
  | classType t => 0x12 :: Codec.encodeTypeId t
  | typeParam index => 0x13 :: Codec.encodeUInt16 index
  | array element => 0x1d :: element.encode
  | methodParam index => 0x1e :: Codec.encodeUInt16 index

/-- Read a type that is no array and whose tag has been read. -/
def decodeTagged (tag : UInt8) : Decoder TypeSig :=
  match Primitive.ofTag? tag with
  | some kind => pure (primitive kind)
  | none =>
    if tag = 0x11 then valueType <$> Codec.typeId
    else if tag = 0x12 then classType <$> Codec.typeId
    else if tag = 0x13 then typeParam <$> Codec.uint16
    else if tag = 0x1e then methodParam <$> Codec.uint16
    else throw (.malformed (.unknownElementType tag))

def decode : Decoder TypeSig
  | [] => .error (.transfer .endOfInput)
  | tag :: rest =>
    if tag = 0x1d then (decode rest).map fun (element, rest) => (array element, rest)
    else decodeTagged tag rest

end TypeSig

def Param.encode (p : Param) : List UInt8 := Codec.encodeString p.name ++ p.type.encode

def Param.decode : Decoder Param := do
  let name ← Codec.string
  let type ← TypeSig.decode
  return { name, type }

def MethodSig.encode (s : MethodSig) : List UInt8 :=
  s.result.encode ++ Codec.encodeList Param.encode s.params
    ++ Codec.encodeList Codec.encodeString s.generics

def MethodSig.decode : Decoder MethodSig := do
  let result ← TypeSig.decode
  let params ← Codec.list Param.decode
  let generics ← Codec.list Codec.string
  return { result, params, generics }

/-! ## Flags -/

def TypeFlags.encode (f : TypeFlags) : List UInt8 := Codec.encodeUInt32 f.bits

def TypeFlags.decode : Decoder TypeFlags := do
  let flags := TypeFlags.mk (← Codec.uint32)
  if flags.known then return flags
  throw (.malformed (.unknownFlags .type flags.bits.toNat))

def MethodFlags.encode (f : MethodFlags) : List UInt8 := Codec.encodeUInt16 f.bits

def MethodFlags.decode : Decoder MethodFlags := do
  let flags := MethodFlags.mk (← Codec.uint16)
  if flags.known then return flags
  throw (.malformed (.unknownFlags .method flags.bits.toNat))

def FieldFlags.encode (f : FieldFlags) : List UInt8 := Codec.encodeUInt16 f.bits

def FieldFlags.decode : Decoder FieldFlags := do
  let flags := FieldFlags.mk (← Codec.uint16)
  if flags.known then return flags
  throw (.malformed (.unknownFlags .field flags.bits.toNat))

/-! ## Exception ranges -/

def HandlerKind.encode : HandlerKind UInt32 → List UInt8
  | catching type => 0 :: type.encode
  | filter start => 1 :: Codec.encodeUInt32 start
  | finallyDo => [2]
  | fault => [4]

def HandlerKind.decode : Decoder (HandlerKind UInt32) := do
  let tag ← Codec.byte
  if tag = 0 then catching <$> TypeSig.decode
  else if tag = 1 then filter <$> Codec.uint32
  else if tag = 2 then return finallyDo
  else if tag = 4 then return fault
  else throw (.malformed (.unknownClauseKind tag))

def ExceptionRange.encode (r : ExceptionRange UInt32) : List UInt8 :=
  r.kind.encode ++ Codec.encodeUInt32 r.tryStart ++ Codec.encodeUInt32 r.tryEnd
    ++ Codec.encodeUInt32 r.handlerStart ++ Codec.encodeUInt32 r.handlerEnd

def ExceptionRange.decode : Decoder (ExceptionRange UInt32) := do
  let kind ← HandlerKind.decode
  let tryStart ← Codec.uint32
  let tryEnd ← Codec.uint32
  let handlerStart ← Codec.uint32
  let handlerEnd ← Codec.uint32
  return { kind, tryStart, tryEnd, handlerStart, handlerEnd }

end Graft
