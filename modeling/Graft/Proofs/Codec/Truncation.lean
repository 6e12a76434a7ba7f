import Graft.Proofs.Codec.Files

/-!
# Files that are cut short

A decoder looks at no more of its input than it needs, so what it answers stands whatever follows
the input, unless the answer is that the input ends too early. This is closed under sequencing and
says nothing about how values are written. A file that is cut short would be read if the rest of it
followed; so the only thing that can be found wrong with it is that it ends.
-/

namespace Graft

variable {α β : Type}

/-- Does the fault say that the input ends too early: in a number or a tag, or in a text? -/
def Fault.IsTruncation (fault : Fault) : Prop :=
  fault = .transfer .endOfInput ∨ fault = .malformed .truncatedString

/-- The decoder says that the input ends too early, or gives an answer that stands whatever
follows the input. -/
def Decoder.Steady (d : Decoder α) : Prop :=
  ∀ input, (∃ fault, fault.IsTruncation ∧ d input = .error fault) ∨
    ∀ more, d (input ++ more) = (d input).map fun p => (p.1, p.2 ++ more)

namespace Decoder

/-! ## Sequencing -/

namespace Steady

variable {d e : Decoder α}

theorem pure (a : α) : (Pure.pure a : Decoder α).Steady := fun _ => .inr fun _ => rfl

theorem throw (fault : Fault) : (MonadExcept.throw fault : Decoder α).Steady :=
  fun _ => .inr fun _ => rfl

theorem bind {f : α → Decoder β} (h : d.Steady) (k : ∀ a, (f a).Steady) : (d >>= f).Steady := by
  intro input
  have run (input) : (d >>= f) input = Except.bind (d input) (fun p => f p.1 p.2) := rfl
  simp only [run]
  rcases h input with ⟨fault, early, failed⟩ | stands
  · exact .inl ⟨fault, early, by rw [failed]; rfl⟩
  cases first : d input with
  | error fault =>
    refine .inr fun more => ?_
    rw [stands, first]
    rfl
  | ok p =>
    rcases k p.1 p.2 with ⟨fault, early, failed⟩ | stands'
    · exact .inl ⟨fault, early, failed⟩
    · refine .inr fun more => ?_
      rw [stands, first]
      exact stands' more

theorem map (g : α → β) (h : d.Steady) : (g <$> d).Steady := by
  have image : (d >>= fun a => Pure.pure (g a)).Steady := h.bind fun a => pure (g a)
  exact image

theorem ite {c : Prop} [Decidable c] (yes : d.Steady) (no : e.Steady) :
    (if c then d else e).Steady := by
  split
  · exact yes
  · exact no

/-- What is read with more input behind it can only be cut short. -/
theorem exists_truncation {front back : List UInt8} {a : α} (h : d.Steady)
    (read : d (front ++ back) = .ok (a, [])) (cut : back ≠ []) :
    ∃ fault, fault.IsTruncation ∧ d front = .error fault := by
  refine (h front).resolve_right fun stands => ?_
  rw [stands back] at read
  cases answer : d front with
  | error fault => rw [answer] at read; cases read
  | ok p =>
    rw [answer] at read
    have none : p.2 ++ back = [] := congrArg Prod.snd (Except.ok.inj read)
    exact cut (List.append_eq_nil_iff.mp none).2

end Steady

end Decoder

namespace Codec

open Decoder

/-! ## Bytes and numbers -/

theorem steady_byte : byte.Steady := by
  intro input
  cases input with
  | nil => exact .inl ⟨_, .inl rfl, rfl⟩
  | cons b rest => exact .inr fun _ => rfl

theorem steady_take (n : Nat) : (take n).Steady := by
  intro input
  by_cases enough : n ≤ input.length
  · refine .inr fun more => ?_
    simp only [take, List.splitAt_eq, List.take_append_of_le_length enough,
      List.drop_append_of_le_length enough, List.length_take_of_le enough, if_true]
    rfl
  · refine .inl ⟨_, .inl rfl, ?_⟩
    have short : ¬ (input.take n).length = n := by rw [List.length_take]; omega
    simp only [take, List.splitAt_eq, if_neg short]

theorem steady_number (n : Nat) : (number n).Steady := (steady_take n).map ofLittleEndian

theorem steady_uint16 : uint16.Steady := (steady_number 2).map UInt16.ofNat

theorem steady_uint32 : uint32.Steady := (steady_number 4).map UInt32.ofNat

theorem steady_uint64 : uint64.Steady := (steady_number 8).map UInt64.ofNat

theorem steady_typeId : typeId.Steady := steady_uint32.map TypeId.mk

theorem steady_methodId : methodId.Steady := steady_uint32.map MethodId.mk

theorem steady_fieldId : fieldId.Steady := steady_uint32.map FieldId.mk

/-! ## Truth values, options, sequences, texts -/

variable {item : Decoder α}

theorem steady_bool : bool.Steady :=
  steady_byte.bind fun _ => .ite (.pure false) (.ite (.pure true) (.throw _))

theorem steady_option (h : item.Steady) : (option item).Steady :=
  steady_byte.bind fun _ => .ite (.pure none) (.ite (h.bind fun a => .pure (some a)) (.throw _))

theorem steady_times (h : item.Steady) (n : Nat) (before : List α) :
    Decoder.Steady (times item n before) := by
  induction n generalizing before with
  | zero => exact fun _ => .inr fun _ => rfl
  | succ n ih =>
    rw [times_succ]
    exact h.bind fun a => ih (a :: before)

theorem steady_list (h : item.Steady) : (list item).Steady :=
  steady_uint32.bind fun length => steady_times h length.toNat []

theorem steady_array (h : item.Steady) : (array item).Steady := (steady_list h).map List.toArray

/-- A text is taken whole before its bytes are looked at. -/
theorem steady_string : string.Steady := by
  refine steady_uint32.bind fun length input => ?_
  simp only [get, getThe, MonadStateOf.get, StateT.get, Bind.bind, StateT.bind, Pure.pure,
    Except.pure, Except.bind, List.splitAt_eq]
  by_cases enough : length.toNat ≤ input.length
  · refine .inr fun more => ?_
    simp only [List.take_append_of_le_length enough, List.drop_append_of_le_length enough,
      List.length_take_of_le enough, ne_eq, not_true_eq_false, if_false]
    cases Text.Utf8.decodeString (input.take length.toNat) with
    | error flaw => rfl
    | ok s => rfl
  · have short : (input.take length.toNat).length ≠ length.toNat := by
      rw [List.length_take]
      omega
    rw [if_pos short]
    exact .inl ⟨_, .inr rfl, rfl⟩

end Codec

open Codec Decoder

/-! ## Types and signatures -/

theorem TypeSig.steady_decodeTagged (tag : UInt8) : (decodeTagged tag).Steady := by
  rw [decodeTagged]
  split
  · exact .pure _
  · exact .ite (steady_typeId.map valueType) (.ite (steady_typeId.map classType)
      (.ite (steady_uint16.map typeParam) (.ite (steady_uint16.map methodParam) (.throw _))))

theorem TypeSig.steady_decode : decode.Steady := by
  -- On the input: only the tag of arrays is followed by the tag of another type.
  intro input
  induction input with
  | nil => exact .inl ⟨_, .inl rfl, rfl⟩
  | cons tag input ih =>
    by_cases isArray : tag = 0x1d
    · simp only [List.cons_append, decode, if_pos isArray]
      rcases ih with ⟨fault, early, failed⟩ | stands
      · exact .inl ⟨fault, early, by rw [failed]; rfl⟩
      · refine .inr fun more => ?_
        rw [stands]
        cases decode input with
        | error fault => rfl
        | ok p => rfl
    · simp only [List.cons_append, decode_cons isArray]
      exact steady_decodeTagged tag input

theorem Param.steady_decode : Param.decode.Steady :=
  steady_string.bind fun _ => TypeSig.steady_decode.bind fun _ => .pure _

theorem MethodSig.steady_decode : MethodSig.decode.Steady := by
  refine TypeSig.steady_decode.bind fun _ => ?_
  refine (steady_list Param.steady_decode).bind fun _ => ?_
  exact (steady_list steady_string).bind fun _ => .pure _

/-! ## Flags and exception ranges -/

theorem TypeFlags.steady_decode : TypeFlags.decode.Steady :=
  steady_uint32.bind fun _ => .ite (.pure _) (.throw _)

theorem MethodFlags.steady_decode : MethodFlags.decode.Steady :=
  steady_uint16.bind fun _ => .ite (.pure _) (.throw _)

theorem FieldFlags.steady_decode : FieldFlags.decode.Steady :=
  steady_uint16.bind fun _ => .ite (.pure _) (.throw _)

theorem HandlerKind.steady_decode : HandlerKind.decode.Steady :=
  steady_byte.bind fun _ => .ite (TypeSig.steady_decode.map catching)
    (.ite (steady_uint32.map filter) (.ite (.pure _) (.ite (.pure _) (.throw _))))

theorem ExceptionRange.steady_decode : ExceptionRange.decode.Steady := by
  refine HandlerKind.steady_decode.bind fun _ => ?_
  refine steady_uint32.bind fun _ => steady_uint32.bind fun _ => ?_
  exact steady_uint32.bind fun _ => steady_uint32.bind fun _ => .pure _

/-! ## Instructions -/

namespace Instruction

theorem steady_decodeOpcode : decodeOpcode.Steady :=
  steady_byte.bind fun _ => .ite (steady_byte.bind fun _ => .pure _) (.pure _)

theorem steady_decodeOperands (code : UInt16) : (decodeOperands code).Steady := by
  unfold decodeOperands
  split
  -- One case per opcode, told apart by the kind of its operands.
  all_goals with_reducible first
    | exact .pure _
    | exact steady_uint16.map _
    | exact steady_uint32.map _
    | exact steady_uint64.map _
    | exact steady_methodId.map _
    | exact steady_fieldId.map _
    | exact TypeSig.steady_decode.map _
    | exact steady_string.map _
    | exact (steady_list steady_uint32).map _
    | exact .throw _

theorem steady_decode : decode.Steady := steady_decodeOpcode.bind steady_decodeOperands

end Instruction

/-! ## Files -/

theorem TypeDef.steady_decode : TypeDef.decode.Steady := by
  refine steady_string.bind fun _ => steady_string.bind fun _ => ?_
  exact TypeFlags.steady_decode.bind fun _ => (steady_option steady_typeId).bind fun _ => .pure _

theorem FieldDef.steady_decode : FieldDef.decode.Steady := by
  refine steady_typeId.bind fun _ => steady_string.bind fun _ => ?_
  exact FieldFlags.steady_decode.bind fun _ => TypeSig.steady_decode.bind fun _ => .pure _

theorem FileBody.steady_decode : FileBody.decode.Steady := by
  refine steady_uint16.bind fun _ => steady_bool.bind fun _ => ?_
  refine (steady_list TypeSig.steady_decode).bind fun _ => ?_
  refine (steady_list Instruction.steady_decode).bind fun _ => ?_
  exact (steady_list ExceptionRange.steady_decode).bind fun _ => .pure _

theorem Method.steady_decode : Method.decode.Steady := by
  refine steady_typeId.bind fun _ => steady_string.bind fun _ => ?_
  refine MethodFlags.steady_decode.bind fun _ => MethodSig.steady_decode.bind fun _ => ?_
  exact (steady_option FileBody.steady_decode).bind fun _ => .pure _

namespace ModuleFile

theorem steady_decode : decode.Steady := by
  refine (steady_take 4).bind fun _ => .ite (.throw _) (steady_uint16.bind fun _ => ?_)
  refine .ite (.throw _) (steady_string.bind fun _ => ?_)
  refine (steady_array TypeDef.steady_decode).bind fun _ => ?_
  refine (steady_array FieldDef.steady_decode).bind fun _ => ?_
  exact (steady_array Method.steady_decode).bind fun _ => .pure _

/-- A file that is cut short, wherever the cut is, cannot be read, and what is found wrong with it
is that it ends too early. -/
theorem truncation_of_cut {f : ModuleFile} (h : f.Writable) {front : List UInt8}
    (part : front <+: f.encode) (proper : front ≠ f.encode) :
    decode front = .error (.transfer .endOfInput) ∨
      decode front = .error (.malformed .truncatedString) := by
  obtain ⟨back, whole⟩ := part
  have cut : back ≠ [] := by
    rintro rfl
    exact proper (by rwa [List.append_nil] at whole)
  have read : decode (front ++ back) = .ok (f, []) := by
    have := reads_decode h []
    rwa [List.append_nil, ← whole] at this
  obtain ⟨fault, rfl | rfl, failed⟩ := steady_decode.exists_truncation read cut
  · exact .inl failed
  · exact .inr failed

/-- An instance: the sample, cut in the middle of its name. -/
theorem truncation_of_cut_sample :
    (Sample.file.Writable ∧ Sample.file.encode.take 13 <+: Sample.file.encode ∧
      Sample.file.encode.take 13 ≠ Sample.file.encode) ∧
    (decode (Sample.file.encode.take 13) = .error (.transfer .endOfInput) ∨
      decode (Sample.file.encode.take 13) = .error (.malformed .truncatedString)) := by
  have writable : Sample.file.Writable := by decide +kernel
  have part : Sample.file.encode.take 13 <+: Sample.file.encode := List.take_prefix _ _
  have proper : Sample.file.encode.take 13 ≠ Sample.file.encode := by decide +kernel
  exact ⟨⟨writable, part, proper⟩, truncation_of_cut writable part proper⟩

end ModuleFile

end Graft
