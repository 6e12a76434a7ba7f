import Graft.Arena
import Mathlib.Data.List.Nodup
import Mathlib.Data.List.Range

/-!
# Slots

What the operations of the arena do to the slot of any handle. Handles are words of 32 bits, so the
handles of new slots are new only while the arena has at most that many slots; `Arena.capacity` is
this number.
-/

namespace Graft

/-! ## Indices as numbers -/

/-- How many numbers a word of 32 bits can hold. -/
def Arena.capacity : Nat := UInt32.size

namespace InsnId

theorem index_lt (id : InsnId) : id.index < Arena.capacity := id.number.toNat_lt

theorem index_ofIndex {i : Nat} (h : i < Arena.capacity) : (ofIndex i).index = i :=
  UInt32.toNat_ofNat_of_lt h

@[simp] theorem ofIndex_index (id : InsnId) : ofIndex id.index = id := by
  simp [ofIndex, index]

theorem index_inj {x y : InsnId} : x.index = y.index ↔ x = y := by
  constructor
  · intro h
    rw [← ofIndex_index x, h, ofIndex_index]
  · rintro rfl
    rfl

end InsnId

namespace MethodId

theorem index_ofIndex {i : Nat} (h : i < Arena.capacity) : (ofIndex i).index = i :=
  UInt32.toNat_ofNat_of_lt h

@[simp] theorem ofIndex_index (k : MethodId) : ofIndex k.index = k := by
  simp [ofIndex, index]

theorem index_inj {j k : MethodId} : j.index = k.index ↔ j = k := by
  constructor
  · intro h
    rw [← ofIndex_index j, h, ofIndex_index]
  · rintro rfl
    rfl

end MethodId

theorem TypeId.index_ofIndex {i : Nat} (h : i < Arena.capacity) : (TypeId.ofIndex i).index = i :=
  UInt32.toNat_ofNat_of_lt h

@[simp] theorem TypeId.ofIndex_index (id : TypeId) : TypeId.ofIndex id.index = id := by
  simp [ofIndex, index]

theorem TypeId.index_inj {x y : TypeId} : x.index = y.index ↔ x = y := by
  constructor
  · intro h
    rw [← ofIndex_index x, h, ofIndex_index]
  · rintro rfl
    rfl

@[simp] theorem FieldId.ofIndex_index (id : FieldId) : FieldId.ofIndex id.index = id := by
  simp [ofIndex, index]

theorem FieldId.index_ofIndex {i : Nat} (h : i < Arena.capacity) : (FieldId.ofIndex i).index = i :=
  UInt32.toNat_ofNat_of_lt h

namespace Arena

variable {a : Arena} {k : MethodId} {code : List (Instruction InsnId)} {id x : InsnId}

/-! ## Reading -/

theorem index_lt_size_of_slot? {s : Slot} (h : a.slot? id = some s) : id.index < a.size :=
  (Array.getElem?_eq_some_iff.mp h).1

theorem owner?_eq_some : a.owner? id = some k ↔ ∃ i, a.slot? id = some ⟨i, some k⟩ := by
  rw [owner?, Option.bind_eq_some_iff]
  constructor
  · rintro ⟨⟨i, owner⟩, hs, ho⟩
    obtain rfl : owner = some k := ho
    exact ⟨i, hs⟩
  · rintro ⟨i, hs⟩
    exact ⟨_, hs, rfl⟩

/-- An owned handle stands for an instruction. -/
theorem exists_get?_of_owner? (h : a.owner? id = some k) : ∃ i, a.get? id = some i := by
  obtain ⟨i, hs⟩ := owner?_eq_some.mp h
  exact ⟨i, by simp [get?, hs]⟩

theorem index_lt_size_of_owner? (h : a.owner? id = some k) : id.index < a.size := by
  obtain ⟨i, hs⟩ := owner?_eq_some.mp h
  exact index_lt_size_of_slot? hs

theorem get?_eq_of_slot? {a' : Arena} (h : a'.slot? id = a.slot? id) : a'.get? id = a.get? id := by
  rw [get?, get?, h]

theorem owner?_eq_of_slot? {a' : Arena} (h : a'.slot? id = a.slot? id) :
    a'.owner? id = a.owner? id := by
  rw [owner?, owner?, h]

/-! ## New slots -/

theorem toList_slots_append :
    (a.append k code).slots.toList = a.slots.toList ++ code.map (Slot.mk · (some k)) :=
  Array.toList_appendList

@[simp] theorem size_append : (a.append k code).size = a.size + code.length := by
  rw [size, ← Array.length_toList, toList_slots_append]
  simp [size]

theorem slot?_append_of_lt (h : id.index < a.size) : (a.append k code).slot? id = a.slot? id := by
  rw [slot?, ← Array.getElem?_toList, toList_slots_append, List.getElem?_append_left h,
    Array.getElem?_toList, slot?]

theorem slot?_append_of_le (h : a.size ≤ id.index) :
    (a.append k code).slot? id = code[id.index - a.size]?.map (Slot.mk · (some k)) := by
  rw [slot?, ← Array.getElem?_toList, toList_slots_append, List.getElem?_append_right h,
    List.getElem?_map]
  rfl

theorem get?_append_of_lt (h : id.index < a.size) : (a.append k code).get? id = a.get? id :=
  get?_eq_of_slot? (slot?_append_of_lt h)

theorem get?_append_of_le (h : a.size ≤ id.index) :
    (a.append k code).get? id = code[id.index - a.size]? := by
  rw [get?, slot?_append_of_le h, Option.map_map]
  exact Option.map_id'

theorem owner?_append_of_lt (h : id.index < a.size) :
    (a.append k code).owner? id = a.owner? id :=
  owner?_eq_of_slot? (slot?_append_of_lt h)

theorem owner?_append_of_le (h : a.size ≤ id.index) (h' : id.index < a.size + code.length) :
    (a.append k code).owner? id = some k := by
  rw [owner?, slot?_append_of_le h, List.getElem?_eq_getElem (by omega)]
  rfl

/-- The method of new slots owns them, and what it owned before. -/
theorem owner?_append_iff :
    (a.append k code).owner? id = some k ↔
      a.owner? id = some k ∨ a.size ≤ id.index ∧ id.index < a.size + code.length := by
  by_cases hid : id.index < a.size
  · rw [owner?_append_of_lt hid]
    exact ⟨.inl, fun ho => ho.resolve_right fun hn => by omega⟩
  · have hid : a.size ≤ id.index := by omega
    constructor
    · intro ho
      have := index_lt_size_of_owner? ho
      rw [size_append] at this
      exact .inr ⟨hid, this⟩
    · rintro (ho | ⟨-, hlt⟩)
      · have := index_lt_size_of_owner? ho
        omega
      · exact owner?_append_of_le hid hlt

@[simp] theorem length_nextIds (n : Nat) : (a.nextIds n).length = n := by
  simp [nextIds]

theorem getElem?_nextIds {n p : Nat} (h : p < n) :
    (a.nextIds n)[p]? = some (.ofIndex (a.size + p)) := by
  simp [nextIds, h]

theorem mem_nextIds {n : Nat} (room : a.size + n ≤ capacity) :
    id ∈ a.nextIds n ↔ a.size ≤ id.index ∧ id.index < a.size + n := by
  simp only [nextIds, List.mem_map, List.mem_range]
  constructor
  · rintro ⟨p, hp, rfl⟩
    rw [InsnId.index_ofIndex (by omega)]
    omega
  · rintro ⟨h, h'⟩
    refine ⟨id.index - a.size, by omega, ?_⟩
    rw [Nat.add_sub_cancel' h, InsnId.ofIndex_index]

/-- A new handle stands for the new instruction at its place. -/
theorem get?_append_ofIndex {p : Nat} (room : a.size + code.length ≤ capacity)
    (hp : p < code.length) : (a.append k code).get? (.ofIndex (a.size + p)) = code[p]? := by
  have index : (InsnId.ofIndex (a.size + p)).index = a.size + p :=
    InsnId.index_ofIndex (by omega)
  rw [get?_append_of_le (by omega), index, Nat.add_sub_cancel_left]

theorem nodup_nextIds {n : Nat} (room : a.size + n ≤ capacity) : (a.nextIds n).Nodup := by
  refine List.Nodup.map_on ?_ List.nodup_range
  intro p hp q hq same
  rw [List.mem_range] at hp hq
  have := congrArg InsnId.index same
  rw [InsnId.index_ofIndex (by omega), InsnId.index_ofIndex (by omega)] at this
  omega

theorem idxOf_nextIds {n p : Nat} (room : a.size + n ≤ capacity) (hp : p < n) :
    (a.nextIds n).idxOf (.ofIndex (a.size + p)) = p := by
  obtain ⟨inside, place⟩ := List.getElem?_eq_some_iff.mp (getElem?_nextIds (a := a) hp)
  rw [← place, (nodup_nextIds room).idxOf_getElem]

/-! ## Changed slots -/

@[simp] theorem size_modify (f : Instruction InsnId → Instruction InsnId) :
    (a.modify id f).size = a.size := by
  simp [modify, size]

@[simp] theorem size_release : (a.release id).size = a.size := by
  simp [release, size]

theorem slot?_modify (f : Instruction InsnId → Instruction InsnId) :
    (a.modify id f).slot? x =
      if x = id then (a.slot? id).map fun s => { s with instruction := f s.instruction }
      else a.slot? x := by
  simp only [modify, slot?, Array.getElem?_modify, InsnId.index_inj, eq_comm (a := id)]
  split
  · subst_vars
    rfl
  · rfl

theorem slot?_release :
    (a.release id).slot? x =
      if x = id then (a.slot? id).map fun s => { s with owner := none } else a.slot? x := by
  simp only [release, slot?, Array.getElem?_modify, InsnId.index_inj, eq_comm (a := id)]
  split
  · subst_vars
    rfl
  · rfl

@[simp] theorem size_releaseAll (ids : List InsnId) : (a.releaseAll ids).size = a.size := by
  induction ids generalizing a with
  | nil => rfl
  | cons id ids ih => exact (ih (a := a.release id)).trans size_release

@[simp] theorem size_modifyAll (ids : List InsnId)
    (f : Instruction InsnId → Instruction InsnId) : (a.modifyAll ids f).size = a.size := by
  induction ids generalizing a with
  | nil => rfl
  | cons id ids ih => exact (ih (a := a.modify id f)).trans (size_modify f)

theorem slot?_releaseAll (ids : List InsnId) :
    (a.releaseAll ids).slot? x =
      if x ∈ ids then (a.slot? x).map fun s => { s with owner := none } else a.slot? x := by
  induction ids generalizing a with
  | nil => simp [releaseAll]
  | cons id ids ih =>
    show ((a.release id).releaseAll ids).slot? x = _
    rw [ih, slot?_release]
    by_cases hx : x = id
    · subst hx
      by_cases hm : x ∈ ids <;> cases a.slot? x <;> simp [hm]
    · simp [hx]

/-- To release handles adds no slot. -/
theorem slot?_releaseAll_eq_none {ids : List InsnId} :
    (a.releaseAll ids).slot? x = none ↔ a.slot? x = none := by
  rw [slot?_releaseAll]
  split
  · rw [Option.map_eq_none_iff]
  · rfl

/-- Handles that are each named once are each changed once. -/
theorem slot?_modifyAll {ids : List InsnId} (distinct : ids.Nodup)
    (f : Instruction InsnId → Instruction InsnId) :
    (a.modifyAll ids f).slot? x =
      if x ∈ ids then (a.slot? x).map fun s => { s with instruction := f s.instruction }
      else a.slot? x := by
  induction ids generalizing a with
  | nil => simp [modifyAll]
  | cons id ids ih =>
    rw [List.nodup_cons] at distinct
    show ((a.modify id f).modifyAll ids f).slot? x = _
    rw [ih distinct.2, slot?_modify]
    by_cases hx : x = id
    · subst hx
      simp [distinct.1]
    · simp [hx]

theorem get?_releaseAll (ids : List InsnId) : (a.releaseAll ids).get? x = a.get? x := by
  rw [get?, slot?_releaseAll, get?]
  split
  · rw [Option.map_map]
    rfl
  · rfl

theorem owner?_releaseAll (ids : List InsnId) :
    (a.releaseAll ids).owner? x = if x ∈ ids then none else a.owner? x := by
  rw [owner?, slot?_releaseAll, owner?]
  split
  · cases a.slot? x <;> rfl
  · rfl

theorem get?_modifyAll {ids : List InsnId} (distinct : ids.Nodup)
    (f : Instruction InsnId → Instruction InsnId) :
    (a.modifyAll ids f).get? x = if x ∈ ids then (a.get? x).map f else a.get? x := by
  rw [get?, slot?_modifyAll distinct, get?]
  split
  · rw [Option.map_map, Option.map_map]
    rfl
  · rfl

theorem owner?_modifyAll (ids : List InsnId) (f : Instruction InsnId → Instruction InsnId) :
    (a.modifyAll ids f).owner? x = a.owner? x := by
  induction ids generalizing a with
  | nil => rfl
  | cons id ids ih =>
    show ((a.modify id f).modifyAll ids f).owner? x = _
    rw [ih, owner?, slot?_modify, owner?]
    split
    · subst_vars
      cases a.slot? id <;> rfl
    · rfl

end Arena

end Graft
