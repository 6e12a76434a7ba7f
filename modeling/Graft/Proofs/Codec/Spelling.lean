import Graft.Proofs.Codec.Reading
import Graft.Traverse

/-!
# What a decoder may take

The converse of reading back: a statement about every input that a decoder accepts, relating the
bytes it takes off the front to the value it gives. It too is closed under sequencing. For each
building block of the format the bytes taken are those that the value is written with, so there is
one way only to spell a value.
-/

namespace Graft

variable {α β : Type}

/-- Whatever input the decoder accepts, `P` holds of the bytes it takes off the front and the value
it gives. -/
def Decoder.Takes (d : Decoder α) (P : List UInt8 → α → Prop) : Prop :=
  ∀ input a rest, d input = .ok (a, rest) → ∃ bytes, input = bytes ++ rest ∧ P bytes a

/-- The decoder accepts no bytes but those that the value it gives is written with, and gives only
values that meet the condition. -/
def Decoder.Spells (d : Decoder α) (encode : α → List UInt8) (Known : α → Prop) : Prop :=
  d.Takes fun bytes a => Known a ∧ bytes = encode a

namespace Decoder

/-! ## Sequencing -/

namespace Takes

variable {d e : Decoder α} {P Q : List UInt8 → α → Prop} {R : List UInt8 → β → Prop}

theorem mono (h : d.Takes P) (imp : ∀ bytes a, P bytes a → Q bytes a) : d.Takes Q := by
  intro input a rest ok
  obtain ⟨bytes, rfl, taken⟩ := h _ _ _ ok
  exact ⟨bytes, rfl, imp bytes a taken⟩

theorem pure {a : α} (h : P [] a) : (Pure.pure a : Decoder α).Takes P := by
  intro input b rest ok
  cases ok
  exact ⟨[], rfl, h⟩

theorem throw (fault : Fault) : (MonadExcept.throw fault : Decoder α).Takes P := by
  intro input a rest ok
  cases ok

theorem bind {f : α → Decoder β} (h : d.Takes P)
    (k : ∀ bytes a, P bytes a → (f a).Takes fun more b => R (bytes ++ more) b) :
    (d >>= f).Takes R := by
  intro input b rest ok
  obtain ⟨a, left, first, second⟩ := bind_run_eq_ok.mp ok
  obtain ⟨bytes, rfl, taken⟩ := h _ _ _ first
  obtain ⟨more, rfl, result⟩ := k bytes a taken _ _ _ second
  exact ⟨bytes ++ more, (List.append_assoc ..).symm, result⟩

theorem map {g : α → β} (h : d.Takes fun bytes a => R bytes (g a)) : (g <$> d).Takes R := by
  have image : (d >>= fun a => Pure.pure (g a)).Takes R := h.bind fun bytes a taken =>
    pure (by rwa [List.append_nil])
  exact image

theorem ite {c : Prop} [Decidable c] (yes : c → d.Takes P) (no : ¬ c → e.Takes P) :
    (if c then d else e).Takes P := by
  by_cases h : c
  · rw [if_pos h]
    exact yes h
  · rw [if_neg h]
    exact no h

end Takes

namespace Spells

variable {d : Decoder α} {encode : α → List UInt8} {Known : α → Prop} {R : List UInt8 → β → Prop}

/-- A part of a record: what follows it is read behind the writing of the part. -/
theorem bind {f : α → Decoder β} (h : d.Spells encode Known)
    (k : ∀ a, Known a → (f a).Takes fun more b => R (encode a ++ more) b) : (d >>= f).Takes R :=
  Takes.bind h fun _ a ⟨known, spelled⟩ => spelled ▸ k a known

theorem map {g : α → β} (h : d.Spells encode Known)
    (k : ∀ a, Known a → R (encode a) (g a)) : (g <$> d).Takes R :=
  Takes.map (h.mono fun _ a ⟨known, spelled⟩ => spelled ▸ k a known)

/-- The bytes of an accepted input, from the front. -/
theorem eq_append {input rest : List UInt8} {a : α} (h : d.Spells encode Known)
    (ok : d input = .ok (a, rest)) : Known a ∧ input = encode a ++ rest := by
  obtain ⟨bytes, rfl, known, rfl⟩ := h _ _ _ ok
  exact ⟨known, rfl⟩

end Spells

end Decoder

namespace Codec

open Decoder

/-! ## Bytes and numbers -/

theorem spells_byte : byte.Spells (fun b => [b]) fun _ => True := by
  intro input b rest ok
  cases input with
  | nil => cases ok
  | cons b' rest' =>
    cases ok
    exact ⟨[b], rfl, trivial, rfl⟩

theorem spells_take (n : Nat) : (take n).Spells id fun bytes => bytes.length = n := by
  intro input bytes rest ok
  simp only [take, List.splitAt_eq] at ok
  split at ok
  · rename_i enough
    cases ok
    exact ⟨_, (List.take_append_drop n input).symm, enough, rfl⟩
  · cases ok

/-- A number of as many bytes as there are is spelled by no other bytes. -/
theorem littleEndian_ofLittleEndian (bytes : List UInt8) :
    littleEndian bytes.length (ofLittleEndian bytes) = bytes := by
  induction bytes with
  | nil => rfl
  | cons b rest ih =>
    have low : UInt8.ofNat (b.toNat + 256 * ofLittleEndian rest) = b := by
      rw [← UInt8.toNat_inj, UInt8.toNat_ofNat']
      have := b.toNat_lt
      omega
    have high : (b.toNat + 256 * ofLittleEndian rest) / 256 = ofLittleEndian rest := by
      have := b.toNat_lt
      omega
    rw [List.length_cons, ofLittleEndian, littleEndian, low, high, ih]

theorem ofLittleEndian_lt (bytes : List UInt8) :
    ofLittleEndian bytes < Nat.pow 256 bytes.length := by
  induction bytes with
  | nil => exact Nat.one_pos
  | cons b rest ih =>
    have := b.toNat_lt
    show b.toNat + 256 * ofLittleEndian rest < Nat.pow 256 rest.length * 256
    omega

theorem spells_number (n : Nat) :
    (number n).Spells (littleEndian n) fun value => value < Nat.pow 256 n := by
  refine (spells_take n).map fun bytes size => ?_
  subst size
  exact ⟨ofLittleEndian_lt bytes, (littleEndian_ofLittleEndian bytes).symm⟩

theorem spells_uint16 : uint16.Spells encodeUInt16 fun _ => True :=
  (spells_number 2).map fun value small =>
    ⟨trivial, by rw [encodeUInt16, UInt16.toNat_ofNat_of_lt' small]⟩

theorem spells_uint32 : uint32.Spells encodeUInt32 fun _ => True :=
  (spells_number 4).map fun value small =>
    ⟨trivial, by rw [encodeUInt32, UInt32.toNat_ofNat_of_lt' small]⟩

theorem spells_uint64 : uint64.Spells encodeUInt64 fun _ => True :=
  (spells_number 8).map fun value small =>
    ⟨trivial, by rw [encodeUInt64, UInt64.toNat_ofNat_of_lt' small]⟩

theorem spells_typeId : typeId.Spells encodeTypeId fun _ => True :=
  spells_uint32.map fun _ known => ⟨known, rfl⟩

theorem spells_methodId : methodId.Spells encodeMethodId fun _ => True :=
  spells_uint32.map fun _ known => ⟨known, rfl⟩

theorem spells_fieldId : fieldId.Spells encodeFieldId fun _ => True :=
  spells_uint32.map fun _ known => ⟨known, rfl⟩

/-! ## Truth values, options, sequences, texts -/

theorem spells_bool : bool.Spells encodeBool fun _ => True := by
  refine spells_byte.bind fun b _ => .ite (fun zero => ?_) fun _ => .ite (fun one => ?_) fun _ => ?_
  · exact .pure ⟨trivial, by rw [zero]; rfl⟩
  · exact .pure ⟨trivial, by rw [one]; rfl⟩
  · exact .throw _

variable {encode : α → List UInt8} {item : Decoder α} {Known : α → Prop}

theorem spells_option (h : item.Spells encode Known) :
    (option item).Spells (encodeOption encode) fun a? => ∀ a, a? = some a → Known a := by
  refine spells_byte.bind fun tag _ => .ite (fun zero => ?_) fun _ =>
    .ite (fun one => ?_) fun _ => ?_
  · exact .pure ⟨nofun, by rw [zero]; rfl⟩
  · refine h.bind fun a known => .pure ⟨fun b same => ?_, ?_⟩
    · cases same
      exact known
    · rw [one, List.append_nil]
      rfl
  · exact .throw _

theorem takes_times (h : item.Spells encode Known) (n : Nat) (before : List α) :
    Decoder.Takes (times item n before) fun bytes items =>
      ∃ more, items = before.reverse ++ more ∧ more.length = n ∧ (∀ a ∈ more, Known a) ∧
        bytes = more.flatMap encode := by
  -- by induction on the number of items to come, those read so far being held in reverse
  induction n generalizing before with
  | zero =>
    intro input items rest ok
    cases ok
    exact ⟨[], rfl, [], (List.append_nil _).symm, rfl, List.forall_mem_nil _, rfl⟩
  | succ n ih =>
    rw [times_succ]
    refine h.bind fun a known => (ih (a :: before)).mono ?_
    rintro bytes items ⟨more, rfl, size, all, rfl⟩
    refine ⟨a :: more, ?_, ?_, List.forall_mem_cons.mpr ⟨known, all⟩, ?_⟩
    · rw [List.reverse_cons, List.append_assoc, List.singleton_append]
    · rw [List.length_cons, size]
    · rw [List.flatMap_cons]

theorem spells_list (h : item.Spells encode Known) :
    (list item).Spells (encodeList encode) fun items =>
      Fits items.length ∧ ∀ a ∈ items, Known a := by
  refine spells_uint32.bind fun length _ => (takes_times h length.toNat []).mono ?_
  rintro bytes items ⟨_, rfl, size, all, rfl⟩
  have short : Fits items.length := by
    rw [Fits, size]
    exact length.toNat_lt
  refine ⟨⟨short, all⟩, ?_⟩
  show _ = encodeList encode items
  rw [encodeList, encodeLength, size, UInt32.ofNat_toNat]

theorem spells_array (h : item.Spells encode Known) :
    (array item).Spells (encodeArray encode) fun items =>
      Fits items.size ∧ ∀ a ∈ items, Known a :=
  (spells_list h).map fun _ ⟨short, all⟩ =>
    ⟨⟨short, fun a ha => all a (List.mem_toArray.mp ha)⟩, rfl⟩

theorem spells_string : string.Spells encodeString fun s => Fits s.utf8ByteSize := by
  refine spells_uint32.bind fun length _ => ?_
  intro input s rest ok
  simp only [get, getThe, MonadStateOf.get, StateT.get, Bind.bind, StateT.bind, Pure.pure,
    Except.pure, Except.bind, List.splitAt_eq] at ok
  split at ok
  · cases ok
  rename_i enough
  rw [Decidable.not_not] at enough
  cases read : Text.Utf8.decodeString (input.take length.toNat) with
  | error flaw => rw [read] at ok; cases ok
  | ok s' =>
    rw [read] at ok
    cases ok
    have spelled := Text.Utf8.encodeString_of_decodeString read
    rw [spelled] at enough
    have short : Fits s.utf8ByteSize := by
      rw [Fits, ← Text.Utf8.length_encodeString, enough]
      exact length.toNat_lt
    refine ⟨_, (List.take_append_drop length.toNat input).symm, short, ?_⟩
    rw [spelled, encodeString, encodeLength, enough, UInt32.ofNat_toNat]

end Codec

end Graft
