import Graft.Proofs.Codec.Files
import Graft.Proofs.Codec.Spelling

/-!
# The format is canonical

Encoding undoes decoding: the bytes that the decoder of a record accepts are those the record is
written with. Tags and opcodes are looked up in tables without repetitions, flags and the two fixed
fields of a file are checked, and everything else is built from blocks that have one spelling. So a
file and what follows it determine the bytes they were read from.
-/

namespace Graft

open Codec Decoder

/-! ## Types and signatures -/

namespace TypeSig

theorem tag_of_ofTag? {tag : UInt8} {kind : Primitive} (h : Primitive.ofTag? tag = some kind) :
    kind.tag = tag := by
  have := List.find?_some h
  rwa [decide_eq_true_eq] at this

theorem takes_decodeTagged (tag : UInt8) :
    (decodeTagged tag).Takes fun bytes t => tag :: bytes = t.encode := by
  rw [decodeTagged]
  split
  · rename_i kind found
    exact .pure (by rw [encode, tag_of_ofTag? found])
  refine .ite (fun same => ?_) fun _ => .ite (fun same => ?_) fun _ =>
    .ite (fun same => ?_) fun _ => .ite (fun same => ?_) fun _ => .throw _
  · exact spells_typeId.map fun id _ => by rw [same, encode]
  · exact spells_typeId.map fun id _ => by rw [same, encode]
  · exact spells_uint16.map fun index _ => by rw [same, encode]
  · exact spells_uint16.map fun index _ => by rw [same, encode]

theorem spells_decode : decode.Spells encode fun _ => True := by
  -- On the input: only the tag of arrays is followed by the tag of another type.
  intro input
  induction input with
  | nil =>
    intro t rest ok
    cases ok
  | cons tag input ih =>
    intro t rest ok
    by_cases isArray : tag = 0x1d
    · rw [decode, if_pos isArray] at ok
      cases read : decode input with
      | error fault => rw [read] at ok; cases ok
      | ok p =>
        rw [read] at ok
        cases ok
        obtain ⟨bytes, rfl, -, spelled⟩ := ih p.1 p.2 read
        exact ⟨tag :: bytes, rfl, trivial, by rw [isArray, spelled, encode]⟩
    · rw [decode_cons isArray] at ok
      obtain ⟨bytes, rfl, spelled⟩ := takes_decodeTagged tag _ _ _ ok
      exact ⟨tag :: bytes, rfl, trivial, spelled⟩

end TypeSig

theorem Param.spells_decode : Param.decode.Spells encode fun p => Fits p.name.utf8ByteSize := by
  refine spells_string.bind fun name short => TypeSig.spells_decode.bind fun type _ => ?_
  exact .pure ⟨short, by simp only [encode, List.append_nil]⟩

theorem MethodSig.spells_decode : MethodSig.decode.Spells encode Writable := by
  refine TypeSig.spells_decode.bind fun result _ => ?_
  refine (spells_list Param.spells_decode).bind fun params hp => ?_
  refine (spells_list spells_string).bind fun generics hg => ?_
  refine .pure ⟨⟨hp.1, hp.2, hg.1, hg.2⟩, ?_⟩
  simp only [encode, List.append_nil, List.append_assoc]

/-! ## Flags -/

theorem TypeFlags.spells_decode : TypeFlags.decode.Spells encode fun f => f.known = true := by
  refine spells_uint32.bind fun bits _ => .ite (fun known => ?_) fun _ => .throw _
  exact .pure ⟨known, List.append_nil _⟩

theorem MethodFlags.spells_decode : MethodFlags.decode.Spells encode fun f => f.known = true := by
  refine spells_uint16.bind fun bits _ => .ite (fun known => ?_) fun _ => .throw _
  exact .pure ⟨known, List.append_nil _⟩

theorem FieldFlags.spells_decode : FieldFlags.decode.Spells encode fun f => f.known = true := by
  refine spells_uint16.bind fun bits _ => .ite (fun known => ?_) fun _ => .throw _
  exact .pure ⟨known, List.append_nil _⟩

/-! ## Exception ranges -/

theorem HandlerKind.spells_decode : HandlerKind.decode.Spells encode fun _ => True := by
  refine spells_byte.bind fun tag _ => .ite (fun same => ?_) fun _ => .ite (fun same => ?_) fun _ =>
    .ite (fun same => ?_) fun _ => .ite (fun same => ?_) fun _ => .throw _
  · exact TypeSig.spells_decode.map fun type _ => ⟨trivial, by rw [same]; rfl⟩
  · exact spells_uint32.map fun start _ => ⟨trivial, by rw [same]; rfl⟩
  · exact .pure ⟨trivial, by rw [same]; rfl⟩
  · exact .pure ⟨trivial, by rw [same]; rfl⟩

theorem ExceptionRange.spells_decode : ExceptionRange.decode.Spells encode fun _ => True := by
  refine HandlerKind.spells_decode.bind fun kind _ => ?_
  refine spells_uint32.bind fun tryStart _ => spells_uint32.bind fun tryEnd _ => ?_
  refine spells_uint32.bind fun handlerStart _ => spells_uint32.bind fun handlerEnd _ => ?_
  exact .pure ⟨trivial, by simp only [encode, List.append_nil, List.append_assoc]⟩

/-! ## Instructions -/

namespace Instruction

theorem spells_decodeOpcode : decodeOpcode.Spells encodeOpcode fun _ => True := by
  refine spells_byte.bind fun first _ => .ite (fun wide => ?_) fun narrow => ?_
  · refine spells_byte.bind fun second _ => .pure ⟨trivial, ?_⟩
    have value : (0xfe00 ||| second.toUInt16).toNat = 0xfe00 + second.toNat := by
      rw [UInt16.toNat_or, UInt8.toNat_toUInt16]
      exact (Nat.two_pow_add_eq_or_of_lt (i := 8) second.toNat_lt 0xfe).symm
    have notNarrow : ¬ 0xfe00 ||| second.toUInt16 < 0x100 := by
      rw [UInt16.lt_iff_toNat_lt, value]
      show ¬ 0xfe00 + second.toNat < 0x100
      omega
    have back : (0xfe00 ||| second.toUInt16).toUInt8 = second := by
      have := second.toNat_lt
      rw [← UInt8.toNat_inj, UInt16.toNat_toUInt8, value]
      omega
    rw [encodeOpcode, if_neg notNarrow, back, wide]
    rfl
  · have small : first.toUInt16 < 0x100 := by
      rw [UInt16.lt_iff_toNat_lt, UInt8.toNat_toUInt16]
      exact first.toNat_lt
    have back : first.toUInt16.toUInt8 = first := by
      rw [← UInt8.toNat_inj, UInt16.toNat_toUInt8, UInt8.toNat_toUInt16]
      exact Nat.mod_eq_of_lt first.toNat_lt
    exact .pure ⟨trivial, by rw [encodeOpcode, if_pos small, back]; rfl⟩

/-- The bytes are those of the operands of an instruction with the opcode. -/
def HasOperands (code : UInt16) (bytes : List UInt8) (i : Instruction UInt32) : Prop :=
  i.opcode = code ∧ i.Writable ∧ bytes = i.encodeOperands

theorem writable_of_lengths {L : Type} {i : Instruction L} (h : i.lengths = []) : i.Writable := by
  intro n hn
  rw [h] at hn
  cases hn

theorem takes_decodeOperands (code : UInt16) : (decodeOperands code).Takes (HasOperands code) := by
  unfold decodeOperands
  split
  -- One case per opcode: which operands follow it, then the three facts about the instruction.
  all_goals first
    | with_reducible refine .pure ?_
    | with_reducible refine spells_uint16.map fun _ _ => ?_
    | with_reducible refine spells_uint32.map fun _ _ => ?_
    | with_reducible refine spells_uint64.map fun _ _ => ?_
    | with_reducible refine spells_methodId.map fun _ _ => ?_
    | with_reducible refine spells_fieldId.map fun _ _ => ?_
    | with_reducible refine TypeSig.spells_decode.map fun _ _ => ?_
    | with_reducible refine spells_string.map fun _ short => ?_
    | with_reducible refine (spells_list spells_uint32).map fun _ known => ?_
    | exact .throw _
  all_goals first
    | exact ⟨rfl, writable_of_lengths rfl, rfl⟩
    | exact ⟨rfl, List.forall_mem_singleton.mpr short, rfl⟩
    | exact ⟨rfl, List.forall_mem_singleton.mpr known.1, rfl⟩

theorem spells_decode : decode.Spells encode Writable := by
  refine spells_decodeOpcode.bind fun code _ => (takes_decodeOperands code).mono ?_
  rintro bytes i ⟨rfl, writable, rfl⟩
  exact ⟨writable, rfl⟩

end Instruction

/-! ## Files -/

theorem TypeDef.spells_decode : TypeDef.decode.Spells encode Writable := by
  refine spells_string.bind fun space hs => spells_string.bind fun name hn => ?_
  refine TypeFlags.spells_decode.bind fun flags hf => ?_
  refine (spells_option spells_typeId).bind fun outer _ => .pure ⟨⟨hs, hn, hf⟩, ?_⟩
  simp only [encode, List.append_nil, List.append_assoc]

theorem FieldDef.spells_decode : FieldDef.decode.Spells encode Writable := by
  refine spells_typeId.bind fun owner _ => spells_string.bind fun name hn => ?_
  refine FieldFlags.spells_decode.bind fun flags hf => ?_
  refine TypeSig.spells_decode.bind fun type _ => .pure ⟨⟨hn, hf⟩, ?_⟩
  simp only [encode, List.append_nil, List.append_assoc]

theorem FileBody.spells_decode : FileBody.decode.Spells encode Writable := by
  refine spells_uint16.bind fun maxStack _ => spells_bool.bind fun initLocals _ => ?_
  refine (spells_list TypeSig.spells_decode).bind fun locals hl => ?_
  refine (spells_list Instruction.spells_decode).bind fun code hc => ?_
  refine (spells_list ExceptionRange.spells_decode).bind fun ranges hr => ?_
  refine .pure ⟨⟨hl.1, hc.1, hc.2, hr.1⟩, ?_⟩
  simp only [encode, List.append_nil, List.append_assoc]

theorem Method.spells_decode : Method.decode.Spells encode Writable := by
  refine spells_typeId.bind fun owner _ => spells_string.bind fun name hn => ?_
  refine MethodFlags.spells_decode.bind fun flags hf => ?_
  refine MethodSig.spells_decode.bind fun signature hs => ?_
  refine (spells_option FileBody.spells_decode).bind fun body hb => .pure ⟨⟨hn, hf, hs, hb⟩, ?_⟩
  simp only [encode, List.append_nil, List.append_assoc]

namespace ModuleFile

theorem spells_decode : decode.Spells encode Writable := by
  refine (spells_take 4).bind fun start _ => .ite (fun _ => .throw _) fun same => ?_
  refine spells_uint16.bind fun version _ => .ite (fun _ => .throw _) fun current => ?_
  refine spells_string.bind fun name hn => ?_
  refine (spells_array TypeDef.spells_decode).bind fun types ht => ?_
  refine (spells_array FieldDef.spells_decode).bind fun fields hf => ?_
  refine (spells_array Method.spells_decode).bind fun methods hm => ?_
  rw [Decidable.not_not] at same current
  refine .pure ⟨⟨current, hn, ht, hf, hm⟩, ?_⟩
  simp only [same, encode, id, List.append_nil, List.append_assoc]

/-- Which inputs are read, and as what: those that start with the encoding of a file that can be
written. -/
theorem decode_eq_ok {bytes rest : List UInt8} {f : ModuleFile} :
    decode bytes = .ok (f, rest) ↔ f.Writable ∧ bytes = f.encode ++ rest := by
  constructor
  · exact spells_decode.eq_append
  · rintro ⟨writable, rfl⟩
    exact reads_decode writable rest

theorem ofBytes_eq_ok {bytes : List UInt8} {f : ModuleFile} :
    ofBytes bytes = .ok f ↔ decode bytes = .ok (f, []) := by
  rw [ofBytes]
  cases decode bytes with
  | error fault => exact ⟨nofun, nofun⟩
  | ok p =>
    obtain ⟨g, rest⟩ := p
    cases rest with
    | nil =>
      show Except.ok g = _ ↔ _
      simp only [Except.ok.injEq, Prod.mk.injEq, and_true]
    | cons b rest =>
      constructor
      · intro ok
        cases ok
      · intro ok
        cases ok

/-- Encoding undoes decoding. What is accepted is the encoding of the file it gives with the bytes
left over behind it, no other bytes give the same file and the same rest, and what holds a file and
nothing else is the encoding of that file. -/
theorem eq_encode_of_decode (bytes : List UInt8) (f : ModuleFile) :
    (∀ rest, decode bytes = .ok (f, rest) → bytes = f.encode ++ rest ∧
      ∀ bytes', decode bytes' = .ok (f, rest) → bytes' = bytes) ∧
    (ofBytes bytes = .ok f → bytes = f.encode) := by
  refine ⟨fun rest read => ?_, fun opened => ?_⟩
  · have spelled := (decode_eq_ok.mp read).2
    refine ⟨spelled, fun bytes' read' => ?_⟩
    rw [spelled]
    exact (decode_eq_ok.mp read').2
  · have whole := (decode_eq_ok.mp (ofBytes_eq_ok.mp opened)).2
    rwa [List.append_nil] at whole

/-- An instance: the sample, with two more bytes behind it and alone. -/
theorem eq_encode_of_decode_sample :
    (decode (Sample.file.encode ++ [7, 0]) = .ok (Sample.file, [7, 0]) ∧
      ∀ bytes', decode bytes' = .ok (Sample.file, [7, 0]) →
        bytes' = Sample.file.encode ++ [7, 0]) ∧
    ∃ bytes, ofBytes bytes = .ok Sample.file ∧ bytes = Sample.file.encode := by
  have writable : Sample.file.Writable := by decide +kernel
  have read := reads_decode writable [7, 0]
  have opened : ofBytes Sample.file.encode = .ok Sample.file := by
    rw [ofBytes_eq_ok, decode_eq_ok, List.append_nil]
    exact ⟨writable, rfl⟩
  refine ⟨⟨read, ((eq_encode_of_decode _ _).1 _ read).2⟩, _, opened, ?_⟩
  exact (eq_encode_of_decode _ _).2 opened

end ModuleFile

end Graft
