import Graft.Codec.Instruction
import Graft.Proofs.Codec.Signatures

/-!
# Reading back instructions

The opcodes in use are those of one byte, except the byte in front of the others, and those of two
bytes that begin with it. Each of them is read back, and selects the decoder of the operands that
were written behind it.
-/

namespace Graft

open Codec

/-- Can the number be written as an opcode? -/
def IsOpcode (code : UInt16) : Prop :=
  code.toNat < 0x100 ∧ code.toNat ≠ 0xfe ∨ code.toNat / 0x100 = 0xfe

instance (code : UInt16) : Decidable (IsOpcode code) := inferInstanceAs (Decidable (_ ∨ _))

namespace Instruction

theorem isOpcode_opcode {L : Type} (i : Instruction L) : IsOpcode i.opcode := by
  cases i with
  | arg access _ => cases access <;> simp [IsOpcode, opcode, SlotAccess.argOpcode]
  | loc access _ => cases access <;> simp [IsOpcode, opcode, SlotAccess.locOpcode]
  | arith op => cases op <;> simp [IsOpcode, opcode, ArithOp.opcode]
  | compare op => cases op <;> simp [IsOpcode, opcode, CompareOp.opcode]
  | conv target => cases target <;> simp [IsOpcode, opcode, ConvTarget.opcode]
  | field access _ => cases access <;> simp [IsOpcode, opcode, FieldAccess.opcode]
  | call form _ => cases form <;> simp [IsOpcode, opcode, CallForm.opcode]
  | typed op _ => cases op <;> simp [IsOpcode, opcode, TypeOp.opcode]
  | brIf expected _ => cases expected <;> simp [IsOpcode, opcode]
  | brCmp comparison _ => cases comparison <;> simp [IsOpcode, opcode, Comparison.opcode]
  | _ => simp [IsOpcode, opcode]

theorem reads_decodeOpcode {code : UInt16} (h : IsOpcode code) :
    decodeOpcode.Reads (encodeOpcode code) code := by
  obtain ⟨narrow, other⟩ | wide := h
  · have back : code.toUInt8.toNat = code.toNat := by
      rw [UInt16.toNat_toUInt8]
      exact Nat.mod_eq_of_lt narrow
    have ne : code.toUInt8 ≠ wideOpcode := fun same => other (by rw [← back, same]; rfl)
    have same : code.toUInt8.toUInt16 = code := by
      rw [← UInt16.toNat_inj, UInt8.toNat_toUInt16, back]
    rw [encodeOpcode, if_pos (UInt16.lt_iff_toNat_lt.mpr narrow)]
    refine (reads_byte _).last ?_
    rw [if_neg ne, same]
    exact .pure code
  · have notNarrow : ¬ code < 0x100 := by
      rw [UInt16.lt_iff_toNat_lt]
      show ¬ code.toNat < 0x100
      omega
    have same : 0xfe00 ||| code.toUInt8.toUInt16 = code := by
      have low : code.toNat % 0x100 < 0x100 := Nat.mod_lt _ (by omega)
      have sum : 0xfe00 + code.toNat % 0x100 = 0xfe00 ||| code.toNat % 0x100 :=
        Nat.two_pow_add_eq_or_of_lt (i := 8) low 0xfe
      rw [← UInt16.toNat_inj, UInt16.toNat_or, UInt8.toNat_toUInt16, UInt16.toNat_toUInt8]
      refine sum.symm.trans ?_
      omega
    rw [encodeOpcode, if_neg notNarrow]
    refine (reads_byte wideOpcode).bind ?_
    rw [if_pos rfl]
    refine (reads_byte _).last ?_
    rw [same]
    exact .pure code

/-- The lengths that are written among the operands. -/
def lengths {L : Type} : Instruction L → List Nat
  | ldstr text => [text.utf8ByteSize]
  | switch targets => [targets.length]
  | _ => []

/-- Can the operands be written with their lengths? -/
def Writable {L : Type} (i : Instruction L) : Prop := ∀ n ∈ i.lengths, Fits n

instance {L : Type} (i : Instruction L) : Decidable i.Writable :=
  inferInstanceAs (Decidable (∀ n ∈ i.lengths, Fits n))

theorem reads_decodeOperands {i : Instruction UInt32} (h : i.Writable) :
    (decodeOperands i.opcode).Reads i.encodeOperands i := by
  cases i with
  | ldcI4 value => exact (reads_uint32 _).map _
  | ldcI8 value => exact (reads_uint64 _).map _
  | ldcR4 bits => exact (reads_uint32 bits).map ldcR4
  | ldcR8 bits => exact (reads_uint64 bits).map ldcR8
  | ldstr text => exact (reads_string (h _ (List.mem_singleton_self _))).map ldstr
  | arg access index => cases access <;> exact (reads_uint16 index).map _
  | loc access index => cases access <;> exact (reads_uint16 index).map _
  | arith op => cases op <;> exact .pure _
  | compare op => cases op <;> exact .pure _
  | conv target => cases target <;> exact .pure _
  | field access id => cases access <;> exact (reads_fieldId id).map _
  | call form id => cases form <;> exact (reads_methodId id).map _
  | typed op type => cases op <;> exact (TypeSig.reads_decode type).map _
  | br target => exact (reads_uint32 target).map br
  | brIf expected target => cases expected <;> exact (reads_uint32 target).map _
  | brCmp comparison target => cases comparison <;> exact (reads_uint32 target).map _
  | switch targets =>
    have short := h _ (List.mem_singleton_self _)
    exact (reads_list short fun target _ => reads_uint32 target).map switch
  | leave target => exact (reads_uint32 target).map leave
  | _ => exact .pure _

theorem reads_decode {i : Instruction UInt32} (h : i.Writable) : decode.Reads i.encode i :=
  (reads_decodeOpcode i.isOpcode_opcode).bind (reads_decodeOperands h)

end Instruction

end Graft
