import Graft.ModuleFile
import Graft.Proofs.Codec.Instructions
import Graft.Proofs.Sample

/-!
# Reading back files

A module file comes back from its bytes if it has the version of the format, flags with a meaning
only, and no text or sequence that is too long for its length to be written.
-/

namespace Graft

open Codec

/-! ## Types and fields -/

/-- Can a type be written, and its flags be read back? -/
structure TypeDef.Writable (t : TypeRecord) : Prop where
  space : Fits t.space.utf8ByteSize
  name : Fits t.name.utf8ByteSize
  flags : t.flags.known

/-- Can a field be written, and its flags be read back? -/
structure FieldDef.Writable (f : FieldDef) : Prop where
  name : Fits f.name.utf8ByteSize
  flags : f.flags.known

instance (t : TypeRecord) : Decidable t.Writable :=
  decidable_of_iff (Fits t.space.utf8ByteSize ∧ Fits t.name.utf8ByteSize ∧ t.flags.known)
    ⟨fun h => ⟨h.1, h.2.1, h.2.2⟩, fun h => ⟨h.1, h.2, h.3⟩⟩

instance (f : FieldDef) : Decidable f.Writable :=
  decidable_of_iff (Fits f.name.utf8ByteSize ∧ f.flags.known)
    ⟨fun h => ⟨h.1, h.2⟩, fun h => ⟨h.1, h.2⟩⟩

theorem TypeDef.reads_decode {t : TypeRecord} (h : t.Writable) :
    TypeDef.decode.Reads t.encode t := by
  simp only [encode, List.append_assoc]
  refine (reads_string h.space).bind ((reads_string h.name).bind ?_)
  refine (TypeFlags.reads_decode h.flags).bind ?_
  exact (reads_option fun id _ => reads_typeId id).last (.pure t)

theorem FieldDef.reads_decode {f : FieldDef} (h : f.Writable) :
    FieldDef.decode.Reads f.encode f := by
  simp only [encode, List.append_assoc]
  refine (reads_typeId f.owner).bind ((reads_string h.name).bind ?_)
  refine (FieldFlags.reads_decode h.flags).bind ?_
  exact (TypeSig.reads_decode f.type).last (.pure f)

/-! ## Bodies and methods -/

/-- Can the parts of a body be written with their lengths? -/
structure FileBody.Writable (b : FileBody) : Prop where
  locals : Fits b.locals.length
  length : Fits b.code.length
  code : ∀ i ∈ b.code, i.Writable
  ranges : Fits b.ranges.length

/-- Can a method be written, and its flags be read back? -/
structure Method.Writable (d : Method FileBody) : Prop where
  name : Fits d.name.utf8ByteSize
  flags : d.flags.known
  signature : d.signature.Writable
  body : ∀ b, d.body = some b → FileBody.Writable b

instance (b : FileBody) : Decidable (FileBody.Writable b) :=
  decidable_of_iff (Fits b.locals.length ∧ Fits b.code.length ∧ (∀ i ∈ b.code, i.Writable) ∧
      Fits b.ranges.length)
    ⟨fun h => ⟨h.1, h.2.1, h.2.2.1, h.2.2.2⟩, fun h => ⟨h.1, h.2, h.3, h.4⟩⟩

instance (d : Method FileBody) : Decidable d.Writable :=
  decidable_of_iff (Fits d.name.utf8ByteSize ∧ d.flags.known ∧ d.signature.Writable ∧
      ∀ b ∈ d.body, FileBody.Writable b)
    ⟨fun h => ⟨h.1, h.2.1, h.2.2.1, h.2.2.2⟩, fun h => ⟨h.1, h.2, h.3, h.4⟩⟩

theorem FileBody.reads_decode {b : FileBody} (h : FileBody.Writable b) :
    FileBody.decode.Reads (FileBody.encode b) b := by
  simp only [encode, List.append_assoc]
  refine (reads_uint16 b.maxStack).bind ((reads_bool b.initLocals).bind ?_)
  refine (reads_list h.locals fun t _ => TypeSig.reads_decode t).bind ?_
  refine (reads_list h.length fun i hi => Instruction.reads_decode (h.code i hi)).bind ?_
  exact (reads_list h.ranges fun r _ => ExceptionRange.reads_decode r).last (.pure b)

theorem Method.reads_decode {d : Method FileBody} (h : d.Writable) :
    Method.decode.Reads d.encode d := by
  simp only [encode, List.append_assoc]
  refine (reads_typeId d.owner).bind ((reads_string h.name).bind ?_)
  refine (MethodFlags.reads_decode h.flags).bind ((MethodSig.reads_decode h.signature).bind ?_)
  exact (reads_option fun b hb => FileBody.reads_decode (h.body b hb)).last (.pure d)

/-! ## Files -/

namespace ModuleFile

/-- Does the file have the version of the format, and can its parts be written and read back? -/
structure Writable (f : ModuleFile) : Prop where
  version : f.version = currentVersion
  name : Fits f.name.utf8ByteSize
  types : Fits f.types.size ∧ ∀ t ∈ f.types, t.Writable
  fields : Fits f.fields.size ∧ ∀ d ∈ f.fields, d.Writable
  methods : Fits f.methods.size ∧ ∀ d ∈ f.methods, d.Writable

instance (f : ModuleFile) : Decidable f.Writable :=
  decidable_of_iff (f.version = currentVersion ∧ Fits f.name.utf8ByteSize ∧
      (Fits f.types.size ∧ ∀ t ∈ f.types, t.Writable) ∧
      (Fits f.fields.size ∧ ∀ d ∈ f.fields, d.Writable) ∧
      (Fits f.methods.size ∧ ∀ d ∈ f.methods, d.Writable))
    ⟨fun h => ⟨h.1, h.2.1, h.2.2.1, h.2.2.2.1, h.2.2.2.2⟩, fun h => ⟨h.1, h.2, h.3, h.4, h.5⟩⟩

theorem reads_decode {f : ModuleFile} (h : f.Writable) : decode.Reads f.encode f := by
  simp only [encode, List.append_assoc]
  refine (reads_take magic).bind ?_
  rw [if_neg (not_not_intro rfl)]
  refine (reads_uint16 f.version).bind ?_
  rw [if_neg (not_not_intro h.version)]
  refine (reads_string h.name).bind ?_
  refine (reads_array h.types.1 fun t ht => TypeDef.reads_decode (h.types.2 t ht)).bind ?_
  refine (reads_array h.fields.1 fun d hd => FieldDef.reads_decode (h.fields.2 d hd)).bind ?_
  exact (reads_array h.methods.1 fun d hd => Method.reads_decode (h.methods.2 d hd)).last (.pure f)

/-- Decoding undoes encoding: what was written is read back, and what follows is left over. -/
theorem decode_encode_append {f : ModuleFile} (h : f.Writable) (rest : List UInt8) :
    decode (f.encode ++ rest) = .ok (f, rest) :=
  reads_decode h rest

/-- An instance: the sample with two more bytes behind it. -/
theorem decode_encode_append_sample :
    Sample.file.Writable ∧ decode (Sample.file.encode ++ [7, 0]) = .ok (Sample.file, [7, 0]) := by
  have writable : Sample.file.Writable := by decide +kernel
  exact ⟨writable, decode_encode_append writable [7, 0]⟩

end ModuleFile

end Graft
