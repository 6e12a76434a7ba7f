import Graft.Codec.Signature
import Graft.Instruction

/-!
# Instructions as bytes

An instruction is its opcode and its operands. Opcodes below 256 take one byte; the others take two,
the first of which is `0xfe`.
-/

namespace Graft

/-- The first byte of an opcode of two bytes. -/
def wideOpcode : UInt8 := 0xfe

def ArithOp.opcode : ArithOp → UInt16
  | .add => 0x58
  | .sub => 0x59
  | .mul => 0x5a
  | .div => 0x5b
  | .rem => 0x5d
  | .and => 0x5f
  | .or => 0x60
  | .xor => 0x61
  | .shl => 0x62
  | .shr => 0x63

def CompareOp.opcode : CompareOp → UInt16
  | .eq => 0xfe01
  | .gt => 0xfe02
  | .lt => 0xfe04

def ConvTarget.opcode : ConvTarget → UInt16
  | .i4 => 0x69
  | .i8 => 0x6a
  | .r4 => 0x6b
  | .r8 => 0x6c

def Comparison.opcode : Comparison → UInt16
  | .eq => 0x3b
  | .ge => 0x3c
  | .gt => 0x3d
  | .le => 0x3e
  | .lt => 0x3f
  | .ne => 0x40

def SlotAccess.argOpcode : SlotAccess → UInt16
  | .load => 0xfe09
  | .loadAddress => 0xfe0a
  | .store => 0xfe0b

def SlotAccess.locOpcode : SlotAccess → UInt16
  | .load => 0xfe0c
  | .loadAddress => 0xfe0d
  | .store => 0xfe0e

def FieldAccess.opcode : FieldAccess → UInt16
  | .load => 0x7b
  | .loadAddress => 0x7c
  | .store => 0x7d
  | .loadStatic => 0x7e
  | .storeStatic => 0x80

def CallForm.opcode : CallForm → UInt16
  | .direct => 0x28
  | .virtual => 0x6f
  | .construct => 0x73

def TypeOp.opcode : TypeOp → UInt16
  | .cast => 0x74
  | .isInstance => 0x75
  | .box => 0x8c
  | .newArray => 0x8d
  | .loadElement => 0xa3
  | .storeElement => 0xa4
  | .unbox => 0xa5
  | .initObject => 0xfe15

namespace Instruction

/-- The number of an instruction. -/
def opcode {L : Type} : Instruction L → UInt16
  | nop => 0x00
  | ldnull => 0x14
  | ldcI4 _ => 0x20
  | ldcI8 _ => 0x21
  | ldcR4 _ => 0x22
  | ldcR8 _ => 0x23
  | ldstr _ => 0x72
  | arg access _ => access.argOpcode
  | loc access _ => access.locOpcode
  | dup => 0x25
  | pop => 0x26
  | arith op => op.opcode
  | neg => 0x65
  | not => 0x66
  | compare op => op.opcode
  | conv target => target.opcode
  | field access _ => access.opcode
  | call form _ => form.opcode
  | typed op _ => op.opcode
  | ldlen => 0x8e
  | br _ => 0x38
  | brIf false _ => 0x39
  | brIf true _ => 0x3a
  | brCmp comparison _ => comparison.opcode
  | switch _ => 0x45
  | leave _ => 0xdd
  | ret => 0x2a
  | throw => 0x7a
  | rethrow => 0xfe1a
  | endfinally => 0xdc

/-- The bytes of an opcode. -/
def encodeOpcode (code : UInt16) : List UInt8 :=
  if code < 0x100 then [code.toUInt8] else [wideOpcode, code.toUInt8]

/-- The bytes of the operands. -/
def encodeOperands : Instruction UInt32 → List UInt8
  | ldcI4 value => Codec.encodeUInt32 value.toUInt32
  | ldcI8 value => Codec.encodeUInt64 value.toUInt64
  | ldcR4 bits => Codec.encodeUInt32 bits
  | ldcR8 bits => Codec.encodeUInt64 bits
  | ldstr text => Codec.encodeString text
  | arg _ index => Codec.encodeUInt16 index
  | loc _ index => Codec.encodeUInt16 index
  | field _ id => Codec.encodeFieldId id
  | call _ id => Codec.encodeMethodId id
  | typed _ type => type.encode
  | br target => Codec.encodeUInt32 target
  | brIf _ target => Codec.encodeUInt32 target
  | brCmp _ target => Codec.encodeUInt32 target
  | switch targets => Codec.encodeList Codec.encodeUInt32 targets
  | leave target => Codec.encodeUInt32 target
  | _ => []

def encode (i : Instruction UInt32) : List UInt8 := encodeOpcode i.opcode ++ encodeOperands i

/-- Take an opcode. -/
def decodeOpcode : Decoder UInt16 := do
  let first ← Codec.byte
  if first = wideOpcode then return 0xfe00 ||| (← Codec.byte).toUInt16
  else return first.toUInt16

/-- Take the operands that go with an opcode. -/
def decodeOperands (code : UInt16) : Decoder (Instruction UInt32) :=
  match code with
  | 0x00 => pure nop
  | 0x14 => pure ldnull
  | 0x20 => (ldcI4 ·.toInt32) <$> Codec.uint32
  | 0x21 => (ldcI8 ·.toInt64) <$> Codec.uint64
  | 0x22 => ldcR4 <$> Codec.uint32
  | 0x23 => ldcR8 <$> Codec.uint64
  | 0x25 => pure dup
  | 0x26 => pure pop
  | 0x28 => call .direct <$> Codec.methodId
  | 0x2a => pure ret
  | 0x38 => br <$> Codec.uint32
  | 0x39 => brIf false <$> Codec.uint32
  | 0x3a => brIf true <$> Codec.uint32
  | 0x3b => brCmp .eq <$> Codec.uint32
  | 0x3c => brCmp .ge <$> Codec.uint32
  | 0x3d => brCmp .gt <$> Codec.uint32
  | 0x3e => brCmp .le <$> Codec.uint32
  | 0x3f => brCmp .lt <$> Codec.uint32
  | 0x40 => brCmp .ne <$> Codec.uint32
  | 0x45 => switch <$> Codec.list Codec.uint32
  | 0x58 => pure (arith .add)
  | 0x59 => pure (arith .sub)
  | 0x5a => pure (arith .mul)
  | 0x5b => pure (arith .div)
  | 0x5d => pure (arith .rem)
  | 0x5f => pure (arith .and)
  | 0x60 => pure (arith .or)
  | 0x61 => pure (arith .xor)
  | 0x62 => pure (arith .shl)
  | 0x63 => pure (arith .shr)
  | 0x65 => pure neg
  | 0x66 => pure not
  | 0x69 => pure (conv .i4)
  | 0x6a => pure (conv .i8)
  | 0x6b => pure (conv .r4)
  | 0x6c => pure (conv .r8)
  | 0x6f => call .virtual <$> Codec.methodId
  | 0x72 => ldstr <$> Codec.string
  | 0x73 => call .construct <$> Codec.methodId
  | 0x74 => typed .cast <$> TypeSig.decode
  | 0x75 => typed .isInstance <$> TypeSig.decode
  | 0x7a => pure throw
  | 0x7b => field .load <$> Codec.fieldId
  | 0x7c => field .loadAddress <$> Codec.fieldId
  | 0x7d => field .store <$> Codec.fieldId
  | 0x7e => field .loadStatic <$> Codec.fieldId
  | 0x80 => field .storeStatic <$> Codec.fieldId
  | 0x8c => typed .box <$> TypeSig.decode
  | 0x8d => typed .newArray <$> TypeSig.decode
  | 0x8e => pure ldlen
  | 0xa3 => typed .loadElement <$> TypeSig.decode
  | 0xa4 => typed .storeElement <$> TypeSig.decode
  | 0xa5 => typed .unbox <$> TypeSig.decode
  | 0xdc => pure endfinally
  | 0xdd => leave <$> Codec.uint32
  | 0xfe01 => pure (compare .eq)
  | 0xfe02 => pure (compare .gt)
  | 0xfe04 => pure (compare .lt)
  | 0xfe09 => arg .load <$> Codec.uint16
  | 0xfe0a => arg .loadAddress <$> Codec.uint16
  | 0xfe0b => arg .store <$> Codec.uint16
  | 0xfe0c => loc .load <$> Codec.uint16
  | 0xfe0d => loc .loadAddress <$> Codec.uint16
  | 0xfe0e => loc .store <$> Codec.uint16
  | 0xfe15 => typed .initObject <$> TypeSig.decode
  | 0xfe1a => pure rethrow
  | _ => MonadExcept.throw (Fault.unknownOpcode code)

def decode : Decoder (Instruction UInt32) := do
  let code ← decodeOpcode
  decodeOperands code

end Instruction

end Graft
