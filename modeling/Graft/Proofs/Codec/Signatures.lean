import Graft.Codec.Signature
import Graft.Proofs.Codec.Reading

/-!
# Reading back signatures, flags and exception ranges

A type comes back from its bytes by induction on the type; the tag of an array is read before the
tag of any other type is looked up. Flags come back if all their bits have a meaning.
-/

namespace Graft

open Codec

/-! ## Types -/

namespace TypeSig

theorem decode_cons {tag : UInt8} (other : tag ≠ 0x1d) (rest : List UInt8) :
    decode (tag :: rest) = decodeTagged tag rest := by
  rw [decode]
  exact if_neg other

/-- A type whose tag is not the one of arrays is read as the decoder for the tag reads it. -/
theorem reads_tagged {tag : UInt8} {bytes : List UInt8} {t : TypeSig} (other : tag ≠ 0x1d)
    (h : (decodeTagged tag).Reads bytes t) : decode.Reads (tag :: bytes) t := by
  intro rest
  rw [List.cons_append, decode_cons other]
  exact h rest

theorem reads_decode (t : TypeSig) : decode.Reads t.encode t := by
  induction t with
  | primitive kind => cases kind <;> exact fun _ => rfl
  | valueType id => exact reads_tagged (by decide) ((reads_typeId id).map valueType)
  | classType id => exact reads_tagged (by decide) ((reads_typeId id).map classType)
  | typeParam index => exact reads_tagged (by decide) ((reads_uint16 index).map typeParam)
  | methodParam index => exact reads_tagged (by decide) ((reads_uint16 index).map methodParam)
  | array element ih =>
    intro rest
    rw [encode, List.cons_append, decode, if_pos rfl, ih rest]
    rfl

end TypeSig

/-! ## Signatures -/

/-- Can the parts of a signature be written with their lengths? -/
structure MethodSig.Writable (s : MethodSig) : Prop where
  params : Fits s.params.length
  names : ∀ p ∈ s.params, Fits p.name.utf8ByteSize
  generics : Fits s.generics.length
  generic : ∀ name ∈ s.generics, Fits name.utf8ByteSize

instance (s : MethodSig) : Decidable s.Writable :=
  decidable_of_iff (Fits s.params.length ∧ (∀ p ∈ s.params, Fits p.name.utf8ByteSize) ∧
      Fits s.generics.length ∧ ∀ name ∈ s.generics, Fits name.utf8ByteSize)
    ⟨fun h => ⟨h.1, h.2.1, h.2.2.1, h.2.2.2⟩, fun h => ⟨h.1, h.2, h.3, h.4⟩⟩

theorem Param.reads_decode {p : Param} (short : Fits p.name.utf8ByteSize) :
    Param.decode.Reads p.encode p :=
  (reads_string short).bind ((TypeSig.reads_decode p.type).last (.pure p))

theorem MethodSig.reads_decode {s : MethodSig} (h : s.Writable) :
    MethodSig.decode.Reads s.encode s := by
  rw [encode, List.append_assoc]
  refine (TypeSig.reads_decode s.result).bind ?_
  refine (reads_list h.params fun p hp => Param.reads_decode (h.names p hp)).bind ?_
  exact (reads_list h.generics fun name hn => reads_string (h.generic name hn)).last (.pure s)

/-! ## Flags -/

theorem TypeFlags.reads_decode {f : TypeFlags} (known : f.known) :
    TypeFlags.decode.Reads f.encode f := by
  refine (reads_uint32 f.bits).last ?_
  rw [if_pos known]
  exact .pure f

theorem MethodFlags.reads_decode {f : MethodFlags} (known : f.known) :
    MethodFlags.decode.Reads f.encode f := by
  refine (reads_uint16 f.bits).last ?_
  rw [if_pos known]
  exact .pure f

theorem FieldFlags.reads_decode {f : FieldFlags} (known : f.known) :
    FieldFlags.decode.Reads f.encode f := by
  refine (reads_uint16 f.bits).last ?_
  rw [if_pos known]
  exact .pure f

/-! ## Exception ranges -/

theorem HandlerKind.reads_decode (kind : HandlerKind UInt32) :
    HandlerKind.decode.Reads kind.encode kind := by
  cases kind with
  | catching type => exact (reads_byte 0).bind ((TypeSig.reads_decode type).map catching)
  | filter start => exact (reads_byte 1).bind ((reads_uint32 start).map filter)
  | finallyDo => exact (reads_byte 2).bind (.pure finallyDo)
  | fault => exact (reads_byte 4).bind (.pure fault)

theorem ExceptionRange.reads_decode (r : ExceptionRange UInt32) :
    ExceptionRange.decode.Reads r.encode r := by
  simp only [encode, List.append_assoc]
  refine (HandlerKind.reads_decode r.kind).bind ((reads_uint32 r.tryStart).bind ?_)
  refine (reads_uint32 r.tryEnd).bind ((reads_uint32 r.handlerStart).bind ?_)
  exact (reads_uint32 r.handlerEnd).last (.pure r)

end Graft
