import Graft.Module.Store
import Graft.Proofs.Preservation
import Mathlib.Data.List.Perm.Subperm

/-!
# Bodies seen by position

A file refers to instructions by position. What a linked body looks like there is `LiveBody.view`:
every handle is replaced by its place in the body. Storing a linked body succeeds and gives its
view, and a body that was placed in the arena is seen as it was before.
-/

namespace Graft

/-! ## Finding handles -/

namespace Positions

/-- What is put into an index can be found. -/
theorem isSome_foldl_insert {pairs : List (InsnId × Nat)} {places : Std.HashMap InsnId Nat}
    {id : InsnId} (h : places[id]?.isSome ∨ ∃ pair ∈ pairs, pair.1 = id) :
    (pairs.foldl (fun places (id, position) => places.insert id position) places)[id]?.isSome := by
  induction pairs generalizing places with
  | nil => exact h.resolve_right (by simp)
  | cons pair pairs ih =>
    refine ih ?_
    rw [Std.HashMap.getElem?_insert]
    by_cases same : pair.1 = id
    · exact .inl (by simp [same])
    · rw [if_neg (by simpa using same)]
      rcases h with h | ⟨p, hp, hid⟩
      · exact .inl h
      · rcases List.mem_cons.mp hp with rfl | hp
        · exact absurd hid same
        · exact .inr ⟨p, hp, hid⟩

/-- A handle that stands in the list once is found at its place. -/
theorem find?_eq {ids : List InsnId} (distinct : ids.Nodup) (id : InsnId) :
    (ofList ids).find? id = if id ∈ ids then some (ids.idxOf id) else none := by
  cases hf : (ofList ids).find? id with
  | some i =>
    have hi := getElem?_of_find? hf
    rw [if_pos (List.mem_of_getElem? hi), Places.idxOf_of_getElem? distinct hi]
  | none =>
    rw [if_neg]
    intro hm
    obtain ⟨p, hp⟩ := List.mem_iff_getElem?.mp hm
    have found : ((ofList ids).find? id).isSome :=
      isSome_foldl_insert (.inr ⟨(id, p), List.mem_zipIdx_iff_getElem?.mpr hp, rfl⟩)
    rw [hf] at found
    cases found

end Positions

/-! ## Views -/

namespace LiveBody

variable {a : Arena} {b : LiveBody} {id : InsnId}

/-- The place of a handle as a file writes it. -/
def position (b : LiveBody) (id : InsnId) : UInt32 := .ofNat (b.code.idxOf id)

/-- The instruction of a handle, its labels as positions of the body. -/
def viewInstruction (a : Arena) (b : LiveBody) (id : InsnId) : Instruction UInt32 :=
  ((a.get? id).getD .nop).mapLabels b.position

/-- The body with labels as positions. -/
def view (a : Arena) (b : LiveBody) : FileBody where
  maxStack := b.maxStack
  initLocals := b.initLocals
  locals := b.locals.map LocalSlot.type
  code := b.code.map (viewInstruction a b)
  ranges := b.ranges.map (·.mapLabels b.position)

/-- Handles are words of 32 bits, so a body cannot hold more of them than that. -/
theorem length_le_capacity (distinct : b.code.Nodup) : b.code.length ≤ Arena.capacity := by
  have nodup : (b.code.map InsnId.index).Nodup :=
    distinct.map fun _ _ => InsnId.index_inj.mp
  have sub : b.code.map InsnId.index ⊆ List.range Arena.capacity := by
    intro n hn
    obtain ⟨id, -, rfl⟩ := List.mem_map.mp hn
    exact List.mem_range.mpr id.index_lt
  have := (List.subperm_of_subset nodup sub).length_le
  rwa [List.length_map, List.length_range] at this

/-- No place is too large to be written. -/
theorem toNat_position (distinct : b.code.Nodup) (hid : id ∈ b.code) :
    (b.position id).toNat = b.code.idxOf id := by
  have inside := List.idxOf_lt_length_of_mem hid
  have := length_le_capacity distinct
  rw [position, UInt32.toNat_ofNat', Nat.mod_eq_of_lt]
  exact inside.trans_le this

/-- The body refers to its own handles only, and they stand for instructions. -/
structure Readable (a : Arena) (b : LiveBody) : Prop extends Linked a b where
  stored : ∀ id ∈ b.code, ∃ i, a.get? id = some i

theorem Tied.readable {k : MethodId} (h : Tied k a b) : b.Readable a :=
  ⟨h.toLinked, fun _ => h.exists_get?⟩

theorem Readable.of_empty (code : b.code = []) (ranges : b.ranges = []) : b.Readable a :=
  ⟨.of_empty code ranges, by simp [code]⟩

/-- A view depends on the instructions of the handles only. -/
theorem view_congr {a' : Arena} (same : ∀ id ∈ b.code, a'.get? id = a.get? id) :
    b.view a' = b.view a := by
  unfold view
  congr 1
  exact List.map_congr_left fun id hid => by rw [viewInstruction, viewInstruction, same id hid]

end LiveBody

/-! ## Locals -/

namespace LocalSlot

variable {types : List TypeSig}

@[simp] theorem length_number : (number types).length = types.length := by simp [number]

@[simp] theorem map_type_number : (number types).map type = types := by
  rw [number, List.map_map]
  exact List.zipIdx_map_fst _ _

theorem number_concat {type : TypeSig} :
    number (types ++ [type]) = number types ++ [⟨.ofNat types.length, type⟩] := by
  simp [number, List.zipIdx_append]

end LocalSlot

namespace LiveBody

variable {b b' : LiveBody}

/-- The locals are numbered in order. -/
def Indexed (b : LiveBody) : Prop := b.locals = LocalSlot.number (b.locals.map LocalSlot.type)

theorem Indexed.of_number {types : List TypeSig} (h : b.locals = LocalSlot.number types) :
    b.Indexed := by
  rw [Indexed, h, LocalSlot.map_type_number]

theorem Indexed.of_locals_eq (h : b.Indexed) (same : b'.locals = b.locals) : b'.Indexed :=
  .of_number (same.trans h)

theorem indexed_of_nil (none : b.locals = []) : b.Indexed := by
  rw [Indexed, none]
  rfl

/-- The numbers of locals say nothing that their types do not. -/
theorem Indexed.locals_eq (h : b.Indexed) (h' : b'.Indexed)
    (types : b'.locals.map LocalSlot.type = b.locals.map LocalSlot.type) :
    b'.locals = b.locals := by
  rw [h', types, ← h]

/-- A new local gets the next number. -/
theorem Indexed.withLocal (h : b.Indexed) (s : TypeSig) : (b.withLocal s).Indexed := by
  have numbered : (b.withLocal s).locals =
      LocalSlot.number (b.locals.map LocalSlot.type ++ [s]) := by
    rw [LocalSlot.number_concat, ← h, List.length_map]
    rfl
  exact .of_number numbered

end LiveBody

/-! ## Bodies that are placed -/

namespace FileBody

variable {c : FileBody} {a : Arena} {id : InsnId} {n p : Nat}

/-- The body with handles from `n` on is in the arena. -/
structure PlacedAt (c : FileBody) (n : Nat) (a : Arena) : Prop where
  room : ∀ p < c.code.length, n + p < Arena.capacity
  get? : ∀ (p : Nat) x, c.code[p]? = some x →
    a.get? (.ofIndex (n + p)) = some (x.mapLabels fun q => .ofIndex (n + q.toNat))
  targets : ∀ i ∈ c.code, ∀ l ∈ i.targets, l.toNat < c.code.length
  markers : ∀ r ∈ c.ranges, ∀ l ∈ r.markers, l.toNat < c.code.length

theorem indexed_place : (c.place n).Indexed := .of_number rfl

theorem mem_code_place : id ∈ (c.place n).code ↔ ∃ p < c.code.length, id = .ofIndex (n + p) := by
  simp [FileBody.place, eq_comm]

theorem nodup_place (room : ∀ p < c.code.length, n + p < Arena.capacity) :
    (c.place n).code.Nodup := by
  refine List.Nodup.map_on ?_ List.nodup_range
  intro p hp q hq same
  have hp := room p (List.mem_range.mp hp)
  have hq := room q (List.mem_range.mp hq)
  have index := congrArg InsnId.index same
  rw [InsnId.index_ofIndex hp, InsnId.index_ofIndex hq] at index
  exact Nat.add_left_cancel index

namespace PlacedAt

theorem readable (h : c.PlacedAt n a) : (c.place n).Readable a where
  nodup := nodup_place h.room
  targets id hid i hi l hl := by
    obtain ⟨p, hp, rfl⟩ := mem_code_place.mp hid
    rw [h.get? p _ (List.getElem?_eq_getElem hp)] at hi
    cases hi
    rw [Instruction.targets_mapLabels] at hl
    obtain ⟨q, hq, rfl⟩ := List.mem_map.mp hl
    exact mem_code_place.mpr ⟨_, h.targets _ (List.getElem_mem hp) q hq, rfl⟩
  markers r hr l hl := by
    obtain ⟨s, hs, rfl⟩ := List.mem_map.mp hr
    rw [ExceptionRange.markers_mapLabels] at hl
    obtain ⟨q, hq, rfl⟩ := List.mem_map.mp hl
    exact mem_code_place.mpr ⟨_, h.markers s hs q hq, rfl⟩
  stored id hid := by
    obtain ⟨p, hp, rfl⟩ := mem_code_place.mp hid
    exact ⟨_, h.get? p _ (List.getElem?_eq_getElem hp)⟩

/-- The place of a handle is the position that it was made from. -/
theorem position_eq (h : c.PlacedAt n a) {l : UInt32} (hl : l.toNat < c.code.length) :
    (c.place n).position (.ofIndex (n + l.toNat)) = l := by
  have place : (c.place n).code[l.toNat]? = some (.ofIndex (n + l.toNat)) := by
    simp [FileBody.place, hl]
  rw [LiveBody.position, Places.idxOf_of_getElem? (nodup_place h.room) place, UInt32.ofNat_toNat]

/-- A placed body is seen as the body that was placed. -/
theorem view_place (h : c.PlacedAt n a) : LiveBody.view a (c.place n) = c := by
  have code : (c.place n).code.map (LiveBody.viewInstruction a (c.place n)) = c.code := by
    refine List.ext_getElem (by simp [FileBody.place]) fun p _ hp => ?_
    rw [List.getElem_map]
    simp only [FileBody.place, List.getElem_map, List.getElem_range, LiveBody.viewInstruction,
      h.get? p _ (List.getElem?_eq_getElem hp), Option.getD_some, Instruction.mapLabels_mapLabels]
    exact Instruction.mapLabels_eq_self fun l hl =>
      h.position_eq (h.targets _ (List.getElem_mem hp) l hl)
  have ranges : (c.place n).ranges.map (·.mapLabels (c.place n).position) = c.ranges := by
    show (c.ranges.map _).map _ = c.ranges
    rw [List.map_map]
    refine (List.map_congr_left fun r hr => ?_).trans (List.map_id c.ranges)
    rw [Function.comp, ExceptionRange.mapLabels_mapLabels]
    exact ExceptionRange.mapLabels_eq_self fun l hl => h.position_eq (h.markers r hr l hl)
  have locals : (c.place n).locals.map LocalSlot.type = c.locals := LocalSlot.map_type_number
  rw [LiveBody.view, code, ranges, locals]
  rfl

end PlacedAt

end FileBody

namespace Module

variable {m : Module} {k : MethodId} {b : LiveBody}

/-- Storing a body whose handles all stand for instructions and which refers to its own handles only
gives the view of it. -/
theorem fileBody_eq (h : b.Linked m.arena) (stored : ∀ id ∈ b.code, ∃ i, m.arena.get? id = some i) :
    m.fileBody k b = .ok (b.view m.arena) := by
  have found : ∀ l ∈ b.code, (Positions.ofList b.code).find? l = some (b.code.idxOf l) := by
    intro l hl
    rw [Positions.find?_eq h.nodup, if_pos hl]
  refine bind_eq_ok.mpr ⟨_, mapM_zipIdx_eq_ok_map fun p id hid => ?_,
    bind_eq_ok.mpr ⟨_, mapM_zipIdx_eq_ok_map fun p r hr => ?_, rfl⟩⟩
  · obtain ⟨i, hi⟩ := stored id hid
    rw [LiveBody.viewInstruction, hi]
    simp only [instruction?, hi]
    refine Instruction.mapLabelsM_eq_ok fun l hl => ?_
    rw [found l (h.targets id hid i hi l hl)]
    rfl
  · refine ExceptionRange.mapLabelsM_of_markers fun l hl => ?_
    simp only [found l (h.markers r hr l hl)]
    rfl

end Module

end Graft
