import Graft.Codec.Instruction
import Graft.Tables

/-!
# Module files

The tables of a module as they stand in a file: types list no members, locals have no numbers, and
the instructions of a body refer to one another by position. A file starts with four fixed bytes and
the version of the format.
-/

namespace Graft

/-- A body in a file: locals and instructions in order, labels as positions. -/
abbrev FileBody := Body TypeSig (Instruction UInt32) UInt32

/-- The contents of a module file. -/
structure ModuleFile extends Tables Unit FileBody where
  version : UInt16
  deriving DecidableEq, Repr

namespace TypeDef

def encode (t : TypeRecord) : List UInt8 :=
  Codec.encodeString t.space ++ Codec.encodeString t.name ++ t.flags.encode
    ++ Codec.encodeOption Codec.encodeTypeId t.outer

def decode : Decoder TypeRecord := do
  let space ← Codec.string
  let name ← Codec.string
  let flags ← TypeFlags.decode
  let outer ← Codec.option Codec.typeId
  return { space, name, flags, outer, members := () }

end TypeDef

namespace FieldDef

def encode (f : FieldDef) : List UInt8 :=
  Codec.encodeTypeId f.owner ++ Codec.encodeString f.name ++ f.flags.encode ++ f.type.encode

def decode : Decoder FieldDef := do
  let owner ← Codec.typeId
  let name ← Codec.string
  let flags ← FieldFlags.decode
  let type ← TypeSig.decode
  return { owner, name, flags, type }

end FieldDef

namespace FileBody

def encode (b : FileBody) : List UInt8 :=
  Codec.encodeUInt16 b.maxStack ++ Codec.encodeBool b.initLocals
    ++ Codec.encodeList TypeSig.encode b.locals ++ Codec.encodeList Instruction.encode b.code
    ++ Codec.encodeList ExceptionRange.encode b.ranges

def decode : Decoder FileBody := do
  let maxStack ← Codec.uint16
  let initLocals ← Codec.bool
  let locals ← Codec.list TypeSig.decode
  let code ← Codec.list Instruction.decode
  let ranges ← Codec.list ExceptionRange.decode
  return { maxStack, initLocals, locals, code, ranges }

end FileBody

namespace Method

def encode (m : Method FileBody) : List UInt8 :=
  Codec.encodeTypeId m.owner ++ Codec.encodeString m.name ++ m.flags.encode
    ++ m.signature.encode ++ Codec.encodeOption FileBody.encode m.body

def decode : Decoder (Method FileBody) := do
  let owner ← Codec.typeId
  let name ← Codec.string
  let flags ← MethodFlags.decode
  let signature ← MethodSig.decode
  let body ← Codec.option FileBody.decode
  return { owner, name, flags, signature, body }

end Method

namespace ModuleFile

/-- The bytes at the start of every module file. -/
def magic : List UInt8 := [0x49, 0x4c, 0x4d, 0x44]

/-- The only version of the format. -/
def currentVersion : UInt16 := 1

def encode (f : ModuleFile) : List UInt8 :=
  magic ++ Codec.encodeUInt16 f.version ++ Codec.encodeString f.name
    ++ Codec.encodeArray TypeDef.encode f.types ++ Codec.encodeArray FieldDef.encode f.fields
    ++ Codec.encodeArray Method.encode f.methods

def decode : Decoder ModuleFile := do
  let start ← Codec.take 4
  if start ≠ magic then throw (.badMagic start)
  let version ← Codec.uint16
  if version ≠ currentVersion then throw (.unsupportedVersion version)
  let name ← Codec.string
  let types ← Codec.array TypeDef.decode
  let fields ← Codec.array FieldDef.decode
  let methods ← Codec.array Method.decode
  return { version, name, types, fields, methods }

/-- Read a file that holds a module and nothing else. -/
def ofBytes (bytes : List UInt8) : Except Fault ModuleFile := do
  let (file, rest) ← decode bytes
  if rest ≠ [] then throw (.malformed (.trailingBytes rest.length))
  return file

end ModuleFile

end Graft
