import Graft.Codec.Basic
import Graft.Proofs.Codec.Utf8

/-!
# Reading back what was written

A decoder reads bytes as a value if it takes just these bytes off the front of any input and gives
the value. Reading is closed under sequencing, so the decoder of a record reads what the decoders of
its parts read, one after the other. Lengths are written with 32 bits; what is longer is not read
back.
-/

namespace Graft

variable {α β : Type}

/-- Whatever follows the bytes, the decoder takes them, gives the value and leaves what follows. -/
def Decoder.Reads (d : Decoder α) (bytes : List UInt8) (a : α) : Prop :=
  ∀ rest, d (bytes ++ rest) = .ok (a, rest)

namespace Decoder

/-! ## Sequencing -/

namespace Reads

variable {d : Decoder α} {bytes more : List UInt8} {a : α} {b : β}

theorem pure (a : α) : (Pure.pure a : Decoder α).Reads [] a := fun _ => rfl

theorem bind {f : α → Decoder β} (h : d.Reads bytes a) (k : (f a).Reads more b) :
    (d >>= f).Reads (bytes ++ more) b := by
  intro rest
  rw [List.append_assoc]
  show Except.bind (d (bytes ++ (more ++ rest))) (fun p => f p.1 p.2) = .ok (b, rest)
  rw [h]
  exact k rest

/-- A part of which nothing is left to read. -/
theorem last {f : α → Decoder β} (h : d.Reads bytes a) (k : (f a).Reads [] b) :
    (d >>= f).Reads bytes b := by
  have := h.bind k
  rwa [List.append_nil] at this

theorem map (g : α → β) (h : d.Reads bytes a) : (g <$> d).Reads bytes (g a) := by
  intro rest
  show Except.map (fun p => (g p.1, p.2)) (d (bytes ++ rest)) = .ok (g a, rest)
  rw [h]
  rfl

end Reads

end Decoder

namespace Codec

open Decoder

/-! ## Bytes and numbers -/

theorem reads_byte (b : UInt8) : byte.Reads [b] b := fun _ => rfl

theorem reads_take (bytes : List UInt8) : (take bytes.length).Reads bytes bytes := by
  intro rest
  rw [take, List.splitAt_eq, List.take_left, List.drop_left]
  exact if_pos rfl

theorem length_littleEndian (n value : Nat) : (littleEndian n value).length = n := by
  induction n generalizing value with
  | zero => rfl
  | succ n ih => rw [littleEndian, List.length_cons, ih]

/-- As many bytes as a number needs spell the number. -/
theorem ofLittleEndian_littleEndian {n value : Nat} (h : value < Nat.pow 256 n) :
    ofLittleEndian (littleEndian n value) = value := by
  induction n generalizing value with
  | zero =>
    have : value < 1 := h
    rw [littleEndian, ofLittleEndian]
    omega
  | succ n ih =>
    have : value < Nat.pow 256 n * 256 := h
    rw [littleEndian, ofLittleEndian, ih (Nat.div_lt_of_lt_mul (by omega)), UInt8.toNat_ofNat']
    omega

theorem reads_number {n value : Nat} (h : value < Nat.pow 256 n) :
    (number n).Reads (littleEndian n value) value := by
  have bytes := reads_take (littleEndian n value)
  rw [length_littleEndian] at bytes
  have := bytes.map ofLittleEndian
  rwa [ofLittleEndian_littleEndian h] at this

theorem reads_uint16 (n : UInt16) : uint16.Reads (encodeUInt16 n) n := by
  have := (reads_number (n := 2) n.toNat_lt).map UInt16.ofNat
  rwa [UInt16.ofNat_toNat] at this

theorem reads_uint32 (n : UInt32) : uint32.Reads (encodeUInt32 n) n := by
  have := (reads_number (n := 4) n.toNat_lt).map UInt32.ofNat
  rwa [UInt32.ofNat_toNat] at this

theorem reads_uint64 (n : UInt64) : uint64.Reads (encodeUInt64 n) n := by
  have := (reads_number (n := 8) n.toNat_lt).map UInt64.ofNat
  rwa [UInt64.ofNat_toNat] at this

theorem reads_typeId (id : TypeId) : typeId.Reads (encodeTypeId id) id :=
  (reads_uint32 id.number).map TypeId.mk

theorem reads_methodId (id : MethodId) : methodId.Reads (encodeMethodId id) id :=
  (reads_uint32 id.number).map MethodId.mk

theorem reads_fieldId (id : FieldId) : fieldId.Reads (encodeFieldId id) id :=
  (reads_uint32 id.number).map FieldId.mk

/-! ## Truth values, options, sequences, texts -/

/-- Can the length be written? -/
def Fits (length : Nat) : Prop := length < UInt32.size

instance (length : Nat) : Decidable (Fits length) := inferInstanceAs (Decidable (_ < _))

variable {encode : α → List UInt8} {item : Decoder α}

theorem reads_bool (b : Bool) : bool.Reads (encodeBool b) b := by
  cases b
  · exact fun _ => rfl
  · exact fun _ => rfl

theorem reads_option {a? : Option α} (h : ∀ a, a? = some a → item.Reads (encode a) a) :
    (option item).Reads (encodeOption encode a?) a? := by
  cases a? with
  | none => exact fun _ => rfl
  | some a => exact (reads_byte 1).bind (((h a rfl).map some))

/-- The first item is read before the others. -/
theorem times_succ (item : Decoder α) (n : Nat) (before : List α) :
    times item (n + 1) before = item >>= fun a => times item n (a :: before) := by
  funext input
  show _ = Except.bind (item input) fun p => times item n (p.1 :: before) p.2
  rw [times]
  cases first : item input with
  | error fault => simp only [first]; rfl
  | ok p => simp only [first]; rfl

theorem reads_times {items before : List α} (h : ∀ a ∈ items, item.Reads (encode a) a) :
    Decoder.Reads (times item items.length before) (items.flatMap encode)
      (before.reverse ++ items) := by
  induction items generalizing before with
  | nil =>
    rw [List.append_nil]
    exact fun _ => rfl
  | cons a items ih =>
    obtain ⟨first, others⟩ := List.forall_mem_cons.mp h
    have following := @ih (a :: before) others
    rw [List.reverse_cons, List.append_assoc, List.singleton_append] at following
    rw [List.flatMap_cons, List.length_cons, times_succ]
    exact first.bind following

theorem reads_list {items : List α} (short : Fits items.length)
    (h : ∀ a ∈ items, item.Reads (encode a) a) :
    (list item).Reads (encodeList encode items) items := by
  refine (reads_uint32 _).bind ?_
  rw [UInt32.toNat_ofNat_of_lt' short]
  exact reads_times h

theorem reads_array {items : Array α} (short : Fits items.size)
    (h : ∀ a ∈ items, item.Reads (encode a) a) :
    (array item).Reads (encodeArray encode items) items :=
  (reads_list short fun a ha => h a (Array.mem_toList_iff.mp ha)).map List.toArray

theorem reads_string {s : String} (short : Fits s.utf8ByteSize) :
    string.Reads (encodeString s) s := by
  rw [← Text.Utf8.length_encodeString] at short
  refine (reads_uint32 _).bind fun rest => ?_
  have front : (Text.Utf8.encodeString s ++ rest).splitAt (Text.Utf8.encodeString s).length =
      (Text.Utf8.encodeString s, rest) := by
    rw [List.splitAt_eq, List.take_left, List.drop_left]
  rw [UInt32.toNat_ofNat_of_lt' short]
  simp only [get, getThe, MonadStateOf.get, StateT.get, Bind.bind, StateT.bind, Pure.pure,
    Except.pure, Except.bind, front, ne_eq, not_true_eq_false, if_false,
    Text.Utf8.decodeString_encodeString]
  rfl

end Codec

end Graft
