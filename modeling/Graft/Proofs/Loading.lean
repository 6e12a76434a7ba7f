import Graft.Proofs.Fragments
import Graft.Proofs.Placement
import Graft.Proofs.View

/-!
# What loading checks and what it makes of it

A file that passes the checks has no label that leads out of its body and mentions only entries that
exist. The module that is built from it is therefore linked: handles and labels correspond.
-/

namespace Graft

variable {ε α : Type}

theorem discard_eq_ok {x : Except ε α} : (discard x : Except ε Unit) = .ok () ↔ ∃ a, x = .ok a := by
  cases x <;> simp [discard, Except.map, Functor.mapConst]

namespace ModuleFile

variable {f : ModuleFile} {place : RecordPlace} {length : Nat}

theorem checkLabel_eq_ok {l : UInt32} :
    checkLabel place length l = .ok () ↔ l.toNat < length := by
  rw [checkLabel]
  split <;> simp [*]

theorem checkTypeSig_eq_ok {s : TypeSig} :
    f.checkTypeSig place s = .ok () ↔
      ∀ id, s.mentioned? = some id → id.index < f.types.size := by
  rw [Tables.checkTypeSig]
  cases s.mentioned? with
  | none => simp
  | some id => simp [Tables.checkTypeId]

theorem checkInstruction_eq_ok {i : Instruction UInt32} :
    f.checkInstruction place length i = .ok () ↔
      i.Resolves f.toTables ∧ ∀ l ∈ i.targets, l.toNat < length := by
  have labels : i.targets.forM (checkLabel place length) = .ok () ↔
      ∀ l ∈ i.targets, l.toNat < length := by
    rw [forM_eq_ok]
    exact forall₂_congr fun _ _ => checkLabel_eq_ok
  rw [← labels]
  cases i with
  | field access id =>
    refine Iff.trans ?_ (and_iff_left rfl).symm
    rw [Instruction.resolves_field]
    show (if f.fields.size ≤ id.index then _ else _) = _ ↔ _
    exact ite_le_eq_ok nofun rfl
  | call form id =>
    refine Iff.trans ?_ (and_iff_left rfl).symm
    rw [Instruction.resolves_call]
    show (if f.methods.size ≤ id.index then _ else _) = _ ↔ _
    exact ite_le_eq_ok nofun rfl
  | typed op s =>
    refine Iff.trans ?_ (and_iff_left rfl).symm
    rw [Instruction.resolves_typed]
    show (f.checkTypeSig place s >>= fun _ => _) = _ ↔ _
    rw [bind_eq_ok]
    constructor
    · rintro ⟨⟨⟩, h, -⟩
      exact checkTypeSig_eq_ok.mp h
    · exact fun h => ⟨(), checkTypeSig_eq_ok.mpr h, rfl⟩
  | _ => exact (and_iff_right (.of_none rfl rfl rfl)).symm

/-- Markers only; a range may also name a type. -/
theorem markers_of_checkRange {r : ExceptionRange UInt32}
    (h : f.checkRange place length r = .ok ()) : ∀ l ∈ r.markers, l.toNat < length := by
  have labels : ∃ s, r.mapLabelsM (checkLabel place length) = .ok s := by
    rw [← discard_eq_ok]
    unfold checkRange at h
    cases hc : r.caught? with
    | none => simpa [hc] using h
    | some s =>
      rw [hc] at h
      obtain ⟨_, -, h⟩ := bind_eq_ok.mp h
      exact h
  obtain ⟨s, hs⟩ := labels
  intro l hl
  obtain ⟨⟨⟩, hx⟩ := ExceptionRange.exists_of_mapLabelsM hs l hl
  exact checkLabel_eq_ok.mp hx

/-- The references of a body in a file: operands exist, and no label leads out of the body. -/
structure References (f : ModuleFile) (b : FileBody) : Prop where
  resolves : ∀ i ∈ b.code, i.Resolves f.toTables
  targets : ∀ i ∈ b.code, ∀ l ∈ i.targets, l.toNat < b.code.length
  markers : ∀ r ∈ b.ranges, ∀ l ∈ r.markers, l.toNat < b.code.length

theorem references_of_checkBody {name : String} {b : FileBody}
    (h : f.checkBody place name b = .ok ()) : f.References b := by
  obtain ⟨⟨⟩, code, h⟩ := bind_eq_ok.mp h
  obtain ⟨⟨⟩, ranges, -⟩ := bind_eq_ok.mp h
  rw [forM_eq_ok] at code ranges
  exact ⟨fun i hi => (checkInstruction_eq_ok.mp (code i hi)).1,
    fun i hi => (checkInstruction_eq_ok.mp (code i hi)).2,
    fun r hr => markers_of_checkRange (ranges r hr)⟩

theorem references_of_checkMethod {i : Nat} {d : Method FileBody} {b : FileBody}
    (h : f.checkMethod i d = .ok ()) (hb : d.body = some b) : f.References b := by
  obtain ⟨⟨⟩, -, h⟩ := bind_eq_ok.mp h
  obtain ⟨⟨⟩, -, h⟩ := bind_eq_ok.mp h
  obtain ⟨⟨⟩, -, h⟩ := bind_eq_ok.mp h
  obtain ⟨⟨⟩, -, h⟩ := bind_eq_ok.mp h
  rw [hb] at h
  exact references_of_checkBody h

/-- Every body of a file that passes the checks refers to what is there. -/
theorem references_of_check (h : f.check = .ok ()) {i : Nat} {d : Method FileBody} {b : FileBody}
    (hd : f.methods[i]? = some d) (hb : d.body = some b) : f.References b := by
  obtain ⟨⟨⟩, -, h⟩ := bind_eq_ok.mp h
  obtain ⟨⟨⟩, -, h⟩ := bind_eq_ok.mp h
  rw [forM_zipIdx_eq_ok] at h
  rw [← Array.getElem?_toList] at hd
  exact references_of_checkMethod (h i d hd) hb

theorem load_eq_ok {m : Module} : f.load = .ok m ↔ f.check = .ok () ∧ m = f.build := by
  rw [load, bind_eq_ok]
  constructor
  · rintro ⟨⟨⟩, h, hm⟩
    cases hm
    exact ⟨h, rfl⟩
  · rintro ⟨h, rfl⟩
    exact ⟨(), h, rfl⟩

end ModuleFile

/-! ## Built modules -/

namespace Placement

section

variable (f : ModuleFile)

theorem name_build : f.build.name = f.name := Tables.name_enterAll

/-- The types of the module that is built from a file, but for what they list. -/
theorem records_build : f.build.records = f.types := by
  refine Tables.records_enterAll.trans ?_
  rw [Tables.records_empty, Array.empty_append]

@[simp] theorem size_types_build : f.build.types.size = f.types.size := by
  rw [← Tables.size_records, records_build]

@[simp] theorem fields_build : f.build.fields = f.fields :=
  Tables.fields_enterAll.trans Array.empty_append

theorem methods_build : f.build.methods = (ModuleFile.placeMethods f.methods).1 :=
  Tables.methods_enterAll.trans Array.empty_append

/-- The methods and the arena of the module that is built from a file. -/
theorem placed_build : Placed f.methods.toList f.build.methods f.build.arena := by
  rw [methods_build]
  exact placed_placeMethods f.methods

end

/-- How many instructions the methods of a file have before the one with the index. -/
def first (f : ModuleFile) (i : Nat) : Nat := firstSlot f.methods.toList i

variable {f : ModuleFile} {k : MethodId} {b : LiveBody}

theorem method?_build :
    f.build.method? k = (f.method? k).map fun d => d.placeAt (first f k.index) := by
  rw [Tables.method?, (placed_build f).method, Array.getElem?_toList]
  rfl

theorem body?_build_eq_some :
    f.build.body? k = some b ↔
      ∃ d c, f.method? k = some d ∧ d.body = some c ∧ b = c.place (first f k.index) := by
  rw [Module.body?, method?_build, Option.bind_map, Option.bind_eq_some_iff]
  constructor
  · rintro ⟨d, hd, h⟩
    obtain ⟨c, hc, rfl⟩ := Option.map_eq_some_iff.mp h
    exact ⟨d, c, hd, hc, rfl⟩
  · rintro ⟨d, c, hd, hc, rfl⟩
    exact ⟨d, hd, by simp [Method.placeAt, hc]⟩

section

variable {d : Method FileBody} {c : FileBody} {i p : Nat}

theorem slot_build (hd : f.methods[i]? = some d) (hc : d.body = some c) {x : Instruction UInt32}
    (hx : c.code[p]? = some x) :
    f.build.arena.slots[first f i + p]? =
      some ⟨x.mapLabels fun q => .ofIndex (first f i + q.toNat), some (.ofIndex i)⟩ :=
  (placed_build f).slot i d c p x (Array.getElem?_toList.trans hd) hc hx

theorem lt_size_build (hd : f.methods[i]? = some d) (hc : d.body = some c)
    (hp : p < c.code.length) : first f i + p < f.build.arena.size :=
  (Array.getElem?_eq_some_iff.mp (slot_build hd hc (List.getElem?_eq_getElem hp))).1

/-- The slot of a position. -/
theorem slot?_build_index (room : f.build.arena.size ≤ Arena.capacity)
    (hd : f.methods[i]? = some d) (hc : d.body = some c) {x : Instruction UInt32}
    (hx : c.code[p]? = some x) :
    f.build.arena.slot? (.ofIndex (first f i + p)) =
      some ⟨x.mapLabels fun q => .ofIndex (first f i + q.toNat), some (.ofIndex i)⟩ := by
  have slot := slot_build hd hc hx
  have inside := (Array.getElem?_eq_some_iff.mp slot).1
  rw [Arena.slot?, InsnId.index_ofIndex (inside.trans_le room), slot]

theorem slot?_build (room : f.build.arena.size ≤ Arena.capacity) (hd : f.method? k = some d)
    (hc : d.body = some c) {x : Instruction UInt32} (hx : c.code[p]? = some x) :
    f.build.arena.slot? (.ofIndex (first f k.index + p)) =
      some ⟨x.mapLabels fun q => .ofIndex (first f k.index + q.toNat), some k⟩ := by
  rw [slot?_build_index room hd hc hx, MethodId.ofIndex_index]

/-- All bodies of a file that passes the checks are in the arena, also those of methods without a
number. -/
theorem placedAt_build (h : f.check = .ok ()) (room : f.build.arena.size ≤ Arena.capacity)
    (hd : f.methods[i]? = some d) (hc : d.body = some c) :
    c.PlacedAt (first f i) f.build.arena := by
  have refs := ModuleFile.references_of_check h hd hc
  refine ⟨fun p hp => (lt_size_build hd hc hp).trans_le room, fun p x hx => ?_, refs.targets,
    refs.markers⟩
  rw [Arena.get?, slot?_build_index room hd hc hx]
  rfl

/-- Every method with instructions has a number. -/
def Addressed (f : ModuleFile) : Prop :=
  ∀ (i : Nat) d c, f.methods[i]? = some d → d.body = some c → c.code ≠ [] → i < Arena.capacity

theorem addressed_of_size (h : f.methods.size ≤ Arena.capacity) : Addressed f :=
  fun _ _ _ hd _ _ => (Array.getElem?_eq_some_iff.mp hd).1.trans_le h

/-- Every slot that a method owns is a position of its body. -/
theorem owner?_build {id : InsnId} (addressed : Addressed f)
    (h : f.build.arena.owner? id = some k) :
    ∃ d c p, f.method? k = some d ∧ d.body = some c ∧ p < c.code.length ∧
      id = .ofIndex (first f k.index + p) := by
  obtain ⟨s, hs, owner⟩ := Option.bind_eq_some_iff.mp h
  obtain ⟨i, d, c, p, hd, hc, hp, index, owner'⟩ := (placed_build f).origin id.index s hs
  rw [Array.getElem?_toList] at hd
  have hi := addressed i d c hd hc (List.ne_nil_of_length_pos (Nat.zero_lt_of_lt hp))
  obtain rfl : k = .ofIndex i := Option.some.inj (owner.symm.trans owner')
  have hk : (MethodId.ofIndex i).index = i := MethodId.index_ofIndex hi
  refine ⟨d, c, p, ?_, hc, hp, ?_⟩
  · rw [Tables.method?, hk]
    exact hd
  · rw [hk, ← InsnId.ofIndex_index id, index]
    rfl

end

/-- The instruction of a handle of a built body, with the position that it had in the file. -/
theorem exists_of_mem_code_build (room : f.build.arena.size ≤ Arena.capacity)
    (hb : f.build.body? k = some b) {id : InsnId} (hid : id ∈ b.code) :
    ∃ d c p x, f.method? k = some d ∧ d.body = some c ∧ c.code[p]? = some x ∧
      b = c.place (first f k.index) ∧ id = .ofIndex (first f k.index + p) ∧
      f.build.arena.slot? id =
        some ⟨x.mapLabels fun q => .ofIndex (first f k.index + q.toNat), some k⟩ := by
  obtain ⟨d, c, hd, hc, rfl⟩ := body?_build_eq_some.mp hb
  obtain ⟨p, hp, rfl⟩ := FileBody.mem_code_place.mp hid
  have hx := List.getElem?_eq_getElem hp
  exact ⟨d, c, p, _, hd, hc, hx, rfl, rfl, slot?_build room hd hc hx⟩

theorem linked_body_build (h : f.check = .ok ()) (room : f.build.arena.size ≤ Arena.capacity)
    (hb : f.build.body? k = some b) : b.Linked f.build.arena := by
  obtain ⟨d, c, hd, hc, rfl⟩ := body?_build_eq_some.mp hb
  exact (placedAt_build h room hd hc).readable.toLinked

theorem linked_of_addressed (h : f.check = .ok ()) (room : f.build.arena.size ≤ Arena.capacity)
    (addressed : Addressed f) : f.build.Linked where
  bodies _ _ hb := linked_body_build h room hb
  owner_iff id k := by
    constructor
    · intro owner
      obtain ⟨d, c, p, hd, hc, hp, rfl⟩ := owner?_build addressed owner
      exact ⟨_, body?_build_eq_some.mpr ⟨d, c, hd, hc, rfl⟩,
        FileBody.mem_code_place.mpr ⟨p, hp, rfl⟩⟩
    · rintro ⟨b, hb, hid⟩
      obtain ⟨d, c, p, x, -, -, -, -, -, slot⟩ := exists_of_mem_code_build room hb hid
      simp [Arena.owner?, slot]

theorem linked_build (h : f.check = .ok ()) (n : f.build.Numbered) : f.build.Linked := by
  have length := (placed_build f).length
  rw [Array.length_toList] at length
  exact linked_of_addressed h n.slots (addressed_of_size (length ▸ n.methods))

/-- What the instructions of a built module mention is in its tables. -/
theorem resolves_build (h : f.check = .ok ()) (room : f.build.arena.size ≤ Arena.capacity)
    (hb : f.build.body? k = some b) {id : InsnId} (hid : id ∈ b.code) {i : Instruction InsnId}
    (hi : f.build.arena.get? id = some i) : i.Resolves f.build.toTables := by
  obtain ⟨d, c, p, x, hd, hc, hx, -, -, slot⟩ := exists_of_mem_code_build room hb hid
  have refs := ModuleFile.references_of_check h hd hc
  rw [Arena.get?, slot] at hi
  cases hi
  rw [Instruction.resolves_mapLabels]
  refine (refs.resolves x (List.mem_of_getElem? hx)).mono ?_ ?_ (size_types_build f).ge
  · rw [fields_build]
  · exact (placed_build f).length.ge.trans' Array.length_toList.ge

end Placement

end Graft
