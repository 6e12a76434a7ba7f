import Graft.Edit.Compact
import Graft.Proofs.Relocation

/-!
# Compaction moves bodies

Compaction writes every body by position and reads it back. For a linked body this exchanges its
handles for the ones at its new place in the arena, and nothing else, so a body that verified still
does.
-/

namespace Graft

/-! ## Views that are placed -/

namespace LiveBody

variable {k : MethodId} {a a' : Arena} {b : LiveBody} {id : InsnId} {n : Nat}

/-- The handle for which a handle is exchanged when its body is placed behind `n` slots. -/
def moved (b : LiveBody) (n : Nat) (id : InsnId) : InsnId := .ofIndex (n + b.code.idxOf id)

theorem moved_eq (distinct : b.code.Nodup) (hid : id ∈ b.code) :
    InsnId.ofIndex (n + (b.position id).toNat) = b.moved n id := by
  rw [moved, toNat_position distinct hid]

/-- Placing the view of a body exchanges its handles. -/
theorem relocated_place (linked : b.Linked a) (room : ∀ p < b.code.length, n + p < Arena.capacity)
    (owned : ∀ id ∈ b.code, ∃ i, a.get? id = some i)
    (slots : ∀ id ∈ b.code, a'.slot? (b.moved n id) =
      some ⟨(b.viewInstruction a id).mapLabels fun q => .ofIndex (n + q.toNat), some k⟩) :
    Relocated k (b.moved n) a a' b ((b.view a).place n) where
  code := by
    refine List.ext_getElem (by simp [FileBody.place, view]) fun p hp hp' => ?_
    have hp : p < b.code.length := by simpa [FileBody.place, view] using hp
    simp [FileBody.place, moved, linked.nodup.idxOf_getElem p hp]
  ranges := by
    simp only [FileBody.place, view, List.map_map]
    refine List.map_congr_left fun r hr => ?_
    rw [Function.comp_apply, ExceptionRange.mapLabels_mapLabels]
    exact ExceptionRange.mapLabels_congr fun l hl =>
      moved_eq linked.nodup (linked.markers r hr l hl)
  locals := by simp [FileBody.place, view]
  maxStack := rfl
  injective x hx y hy same := by
    have hx' := room _ (List.idxOf_lt_length_of_mem hx)
    have hy' := room _ (List.idxOf_lt_length_of_mem hy)
    have index := congrArg InsnId.index same
    rw [moved, moved, InsnId.index_ofIndex hx', InsnId.index_ofIndex hy'] at index
    exact (Places.idxOf_inj hx).mp (Nat.add_left_cancel index)
  get? id hid := by
    obtain ⟨i, hi⟩ := owned id hid
    rw [Arena.get?, slots id hid, viewInstruction, hi]
    simp only [Option.map_some, Option.getD_some, Instruction.mapLabels_mapLabels]
    refine congrArg some (Instruction.mapLabels_congr fun l hl => ?_)
    exact moved_eq linked.nodup (linked.targets id hid i hi l hl)
  owner? id hid := by rw [Arena.owner?, slots id hid]; rfl

end LiveBody

/-! ## Stored and loaded modules -/

namespace Module

variable {m m' : Module} {k : MethodId} {b b' : LiveBody} {d : Method LiveBody}
  {d' : Method FileBody} {f : ModuleFile}

/-- A stored method is the method with its body stored. -/
theorem fileMethod_eq_ok (h : m.fileMethod k d = .ok d') :
    d'.head = d.head ∧ (d.body = none ∧ d'.body = none ∨
      ∃ b c, d.body = some b ∧ d'.body = some c ∧ m.fileBody k b = .ok c) := by
  rw [fileMethod] at h
  cases hb : d.body with
  | none =>
    rw [hb] at h
    cases h
    exact ⟨rfl, .inl ⟨rfl, rfl⟩⟩
  | some b =>
    rw [hb] at h
    obtain ⟨c, hc, h⟩ := bind_eq_ok.mp h
    cases h
    exact ⟨rfl, .inr ⟨b, c, rfl, rfl, hc⟩⟩

/-- A stored module has the tables of the module, and its methods stored one by one. -/
theorem toFile_eq_ok (h : m.toFile = .ok f) :
    f.types = m.records ∧ f.fields = m.fields ∧ f.methods.size = m.methods.size ∧
      ∀ k d, m.method? k = some d → ∃ d', f.method? k = some d' ∧ m.fileMethod k d = .ok d' := by
  obtain ⟨methods, stored, h⟩ := bind_eq_ok.mp h
  cases h
  refine ⟨rfl, rfl, ?_, fun k d hd => ?_⟩
  · have := length_of_mapM_eq_ok stored
    simpa using this
  · have place : (m.methods.toList.zipIdx)[k.index]? = some (d, k.index) := by
      have hd : m.methods[k.index]? = some d := hd
      simp [hd]
    obtain ⟨d', hd', file⟩ := exists_getElem?_of_mapM stored place
    simp only [MethodId.ofIndex_index] at file
    exact ⟨d', by simpa [Tables.method?] using hd', file⟩

theorem compacted_eq_ok (h : m.compacted = .ok m') :
    ∃ f, m.toFile = .ok f ∧ f.check = .ok () ∧ m' = { f.build with touched := m.touched } := by
  obtain ⟨f, stored, h⟩ := bind_eq_ok.mp h
  obtain ⟨fresh, loaded, h⟩ := bind_eq_ok.mp h
  cases h
  obtain ⟨check, rfl⟩ := ModuleFile.load_eq_ok.mp loaded
  exact ⟨f, stored, check, rfl⟩

/-- How many instructions the bodies of a module have. -/
def instructionCount (m : Module) : Nat := slotCount m.methods.toList

theorem length_of_fileBody {c : FileBody} (h : m.fileBody k b = .ok c) :
    c.code.length = b.code.length := by
  obtain ⟨code, hcode, h⟩ := bind_eq_ok.mp h
  obtain ⟨ranges, -, h⟩ := bind_eq_ok.mp h
  cases h
  rw [length_of_mapM_eq_ok hcode, List.length_zipIdx]

/-- Compaction keeps a slot for each instruction of a body, and no other. -/
theorem size_compacted (h : m.compacted = .ok m') : m'.arena.size = m.instructionCount := by
  obtain ⟨f, stored, -, rfl⟩ := compacted_eq_ok h
  obtain ⟨methods, each, h⟩ := bind_eq_ok.mp stored
  cases h
  have count : methods.map Method.instructionCount =
      m.methods.toList.zipIdx.map (Method.instructionCount ∘ Prod.fst) := by
    refine map_eq_of_mapM ?_ each
    rintro ⟨d, i⟩ d' file
    obtain ⟨-, ⟨none, none'⟩ | ⟨b, c, hb, hc, view⟩⟩ := fileMethod_eq_ok file
    · simp [Method.instructionCount, none, none']
    · simp [Method.instructionCount, hb, hc, length_of_fileBody view]
  rw [← List.map_map, List.zipIdx_map_fst] at count
  rw [instructionCount, slotCount, ← count]
  exact (Placement.placed_build _).size

/-- A linked body has a body in the compacted module that is the same but for its handles. -/
theorem exists_relocated (h : m.compacted = .ok m') (room : m'.arena.size ≤ Arena.capacity)
    (hb : m.body? k = some b) (linked : b.Linked m.arena)
    (owned : ∀ id ∈ b.code, ∃ i, m.arena.get? id = some i) :
    ∃ b' n, m'.body? k = some b' ∧
      LiveBody.Relocated k (b.moved n) m.arena m'.arena b b' := by
  obtain ⟨f, stored, -, rfl⟩ := compacted_eq_ok h
  obtain ⟨-, -, -, methods⟩ := toFile_eq_ok stored
  obtain ⟨d, hd, hdb⟩ := exists_method? hb
  obtain ⟨d', hd', file⟩ := methods k d hd
  obtain ⟨-, ⟨none, -⟩ | ⟨_, c, hb', hc, view⟩⟩ := fileMethod_eq_ok file
  · rw [hdb] at none
    cases none
  obtain rfl : b = _ := Option.some.inj (hdb.symm.trans hb')
  obtain rfl : b.view m.arena = c := Except.ok.inj ((fileBody_eq linked owned).symm.trans view)
  have length : (b.view m.arena).code.length = b.code.length := List.length_map _
  refine ⟨_, Placement.first f k.index,
    Placement.body?_build_eq_some.mpr ⟨d', _, hd', hc, rfl⟩,
    LiveBody.relocated_place linked (fun p hp => ?_) owned fun id hid => ?_⟩
  · exact (Placement.lt_size_build hd' hc (length ▸ hp)).trans_le room
  · refine Placement.slot?_build room hd' hc ?_
    simp only [LiveBody.view, List.getElem?_map, Places.getElem?_idxOf hid, Option.map_some]

theorem extends_compacted (h : m.compacted = .ok m') : m.toTables.Extends m'.toTables := by
  obtain ⟨f, stored, -, rfl⟩ := compacted_eq_ok h
  obtain ⟨types, fields, -, methods⟩ := toFile_eq_ok stored
  refine ⟨?_, ?_, fun k d hd => ?_⟩
  · show m.types.size ≤ f.build.types.size
    rw [Placement.size_types_build, types, Tables.size_records]
  · show m.fields.size ≤ f.build.fields.size
    rw [Placement.fields_build, fields]
  obtain ⟨d', hd', file⟩ := methods k d hd
  obtain ⟨head, -⟩ := fileMethod_eq_ok file
  refine ⟨d'.placeAt (Placement.first f k.index), ?_, Method.signature_of_head head, ?_⟩
  · show f.build.method? k = _
    rw [Placement.method?_build, hd']
    rfl
  · rw [Method.isStatic, Method.isStatic, Method.placeAt, Method.flags_of_head head]

/-- No body is made up. -/
theorem exists_body?_of_compacted (h : m.compacted = .ok m') (hb : m'.body? k = some b') :
    ∃ b, m.body? k = some b := by
  obtain ⟨f, stored, -, rfl⟩ := compacted_eq_ok h
  obtain ⟨-, -, size, methods⟩ := toFile_eq_ok stored
  obtain ⟨d', c, hd', hc, -⟩ := Placement.body?_build_eq_some.mp hb
  have inside : k.index < m.methods.size := size ▸ (Array.getElem?_eq_some_iff.mp hd').1
  have hd : m.method? k = some m.methods[k.index] := Array.getElem?_eq_getElem inside
  obtain ⟨e, he, file⟩ := methods k _ hd
  obtain rfl : d' = e := Option.some.inj (hd'.symm.trans he)
  obtain ⟨-, ⟨-, none⟩ | ⟨b, -, hb, -, -⟩⟩ := fileMethod_eq_ok file
  · rw [hc] at none
    cases none
  · exact ⟨b, (body?_of_method? hd).trans hb⟩

/-- A module that verifies still does after it was compacted. -/
theorem verify_compacted (h : m.compacted = .ok m') (room : m'.arena.size ≤ Arena.capacity)
    (verify : m.verify = .ok ()) : m'.verify = .ok () := by
  rw [verify_eq_ok] at verify ⊢
  intro k b' hb'
  obtain ⟨b, hb⟩ := exists_body?_of_compacted h hb'
  obtain ⟨r, verified⟩ := verify k b hb
  have owned : ∀ id ∈ b.code, ∃ i, m.arena.get? id = some i := fun id hid =>
    Arena.exists_get?_of_owner? (verified.owner? id hid)
  obtain ⟨_, n, hb'', moved⟩ := exists_relocated h room hb verified.sound.toLinked owned
  obtain rfl : b' = _ := Option.some.inj (hb'.symm.trans hb'')
  exact ⟨r, verified.relocate hb hb' (extends_compacted h) moved⟩

end Module

end Graft
