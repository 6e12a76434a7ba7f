import Graft.Edit.Declare
import Graft.Proofs.WellFormed

/-!
# Qualified names

A qualified name at the top has no separator in it, and that of a nested type ends with a separator
and the type's own name. So a qualified name tells whether the type is nested, in which type, and
what it is called there. A type that is declared under a name that was free has a qualified name
that no other type has.
-/

namespace Graft

/-! ## Separators -/

section

variable {space name name' outer outer' : String} {c separator : Char}

theorem Text.notMem_intercalate {parts : List (List Char)} (apart : c ≠ separator)
    (h : ∀ part ∈ parts, c ∉ part) : c ∉ [separator].intercalate parts := by
  induction parts with
  | nil => exact List.not_mem_nil
  | cons part parts ih =>
    obtain ⟨first, later⟩ := List.forall_mem_cons.mp h
    cases parts with
    | nil => rwa [List.intercalate_singleton]
    | cons next parts =>
      rw [List.intercalate_cons_cons, List.append_assoc, List.mem_append, List.singleton_append,
        List.mem_cons, not_or, not_or]
      exact ⟨first, apart, ih later⟩

theorem IsNamespace.whole (h : IsNamespace space) : nestedSeparator ∉ space.toList := by
  rcases h with rfl | ⟨parts, -, names, rfl⟩
  · exact List.not_mem_nil
  · have dot : ".".toList = ['.'] := rfl
    rw [String.toList_intercalate, dot]
    refine Text.notMem_intercalate (by decide) fun part hp => ?_
    obtain ⟨name, hn, rfl⟩ := List.mem_map.mp hp
    exact (names name hn).1.whole

theorem whole_qualify (hs : IsNamespace space) (hn : IsName name) :
    nestedSeparator ∉ (qualify space name).toList := by
  rw [qualify]
  split
  · exact hn.whole
  · simp only [String.toList_append, List.mem_append, not_or]
    exact ⟨⟨hs.whole, by decide⟩, hn.whole⟩

theorem toList_nestedName :
    (nestedName outer name).toList = outer.toList ++ nestedSeparator :: name.toList := by
  rw [nestedName, String.toList_append, String.toList_append, List.append_assoc]
  rfl

/-- The last separator of a qualified name stands in front of the type's own name. -/
theorem nestedName_inj (h : IsName name) (h' : IsName name')
    (same : nestedName outer name = nestedName outer' name') : outer = outer' ∧ name = name' := by
  have backwards : nestedSeparator ∉ name.toList.reverse ∧ nestedSeparator ∉ name'.toList.reverse :=
    ⟨mt List.mem_reverse.mp h.whole, mt List.mem_reverse.mp h'.whole⟩
  -- read from the back, both texts have the own name in front of the first separator
  have texts := congrArg (Text.pieces nestedSeparator ·.toList.reverse) same
  simp only [toList_nestedName, List.reverse_append, List.reverse_cons, List.append_assoc,
    List.singleton_append, Text.pieces_append backwards.1, Text.pieces_append backwards.2,
    List.cons.injEq] at texts
  obtain ⟨own, around⟩ := texts
  have around := congrArg ([nestedSeparator].intercalate ·) around
  simp only [Text.intercalate_pieces] at around
  exact ⟨String.toList_inj.mp (List.reverse_inj.mp around),
    String.toList_inj.mp (List.reverse_inj.mp own)⟩

end

/-! ## Names in tables -/

namespace Tables

variable {μ μ' β β' : Type} {t : Tables μ β} {t' : Tables μ' β'} {id outer : TypeId}
  {d : TypeRecord} {e : TypeDef μ} {n : Nat}

theorem typeName_top (hd : t.type? id = some e) (top : e.outer = none) :
    t.typeName id = qualify e.space e.name := by
  rw [typeName, hd]
  simp only [top]

theorem typeName_nested (hd : t.type? id = some e) (nested : e.outer = some outer)
    (earlier : outer.index < id.index) :
    t.typeName id = nestedName (t.typeName outer) e.name := by
  rw [typeName, hd]
  simp only [nested, if_pos earlier]

@[simp] theorem size_typeNames : t.typeNames.size = t.types.size := Array.size_ofFn

theorem getElem_typeNames {i : Nat} (h : i < t.typeNames.size) :
    t.typeNames[i] = t.typeName (.ofIndex i) :=
  Array.getElem_ofFn ..

/-- Types with distinct names are told apart by them. -/
theorem typeName_inj (distinct : t.typeNames.toList.Nodup) {id id' : TypeId}
    (h : id.index < t.types.size) (h' : id'.index < t.types.size)
    (same : t.typeName id = t.typeName id') : id = id' := by
  have h : id.index < t.typeNames.toList.length := by simpa using h
  have h' : id'.index < t.typeNames.toList.length := by simpa using h'
  have index : id.index = id'.index := by
    have same : t.typeNames.toList[id.index] = t.typeNames.toList[id'.index] := by
      simpa only [Array.getElem_toList, getElem_typeNames, TypeId.ofIndex_index] using same
    exact distinct.getElem_inj_iff.mp same
  rw [← TypeId.ofIndex_index id, index, TypeId.ofIndex_index]

/-! ## One more type -/

section

variable (records : t'.records = t.records.push d)

include records

theorem size_types_push : t'.types.size = t.types.size + 1 := by
  rw [← size_records, records, Array.size_push, size_records]

theorem typeName_push_of_lt (h : id.index < t.types.size) : t'.typeName id = t.typeName id := by
  refine typeName_congr_of_lt (fun i hi => ?_) id h
  rw [← size_records] at hi
  rw [records, Array.getElem?_push, if_neg hi.ne]

/-- The new type, whatever it lists. -/
theorem type?_push_size (room : t.types.size < Arena.capacity) :
    ∃ e, t'.type? (.ofIndex t.types.size) = some e ∧ e.record = d := by
  have entry : t'.records[t.types.size]? = some d := by
    rw [records, ← size_records]
    exact Array.getElem?_push_size
  rw [getElem?_records] at entry
  rw [type?, TypeId.index_ofIndex room]
  exact Option.map_eq_some_iff.mp entry

theorem typeName_push_top (room : t.types.size < Arena.capacity) (top : d.outer = none) :
    t'.typeName (.ofIndex t.types.size) = qualify d.space d.name := by
  obtain ⟨e, he, rfl⟩ := type?_push_size records room
  exact typeName_top he top

theorem typeName_push_nested (room : t.types.size < Arena.capacity) (nested : d.outer = some outer)
    (around : outer.index < t.types.size) :
    t'.typeName (.ofIndex t.types.size) = nestedName (t.typeName outer) d.name := by
  have earlier : outer.index < (TypeId.ofIndex t.types.size).index := by
    rwa [TypeId.index_ofIndex room]
  obtain ⟨e, he, rfl⟩ := type?_push_size records room
  rw [typeName_nested he nested earlier, typeName_push_of_lt records around]
  rfl

/-- The names of tables with one more type. -/
theorem typeNames_push (room : t.types.size ≤ Arena.capacity) :
    t'.typeNames = t.typeNames.push (t'.typeName (.ofIndex t.types.size)) := by
  refine Array.ext (by simp [size_types_push records]) fun i hi hi' => ?_
  rw [getElem_typeNames, Array.getElem_push]
  split
  · rename_i before
    rw [size_typeNames] at before
    rw [getElem_typeNames]
    refine typeName_push_of_lt records ?_
    rwa [TypeId.index_ofIndex (before.trans_le room)]
  · rename_i last
    rw [size_typeNames] at last hi
    have : i = t.types.size := by
      rw [size_types_push records] at hi
      omega
    rw [this]

theorem nodup_typeNames_push (room : t.types.size ≤ Arena.capacity)
    (distinct : t.typeNames.toList.Nodup)
    (fresh : ∀ i < t.types.size, t.typeName (.ofIndex i) ≠ t'.typeName (.ofIndex t.types.size)) :
    t'.typeNames.toList.Nodup := by
  rw [typeNames_push records room, Array.toList_push, List.nodup_append]
  refine ⟨distinct, List.nodup_singleton _, fun name hn last hl => ?_⟩
  obtain rfl := List.mem_singleton.mp hl
  obtain ⟨i, hi, rfl⟩ := List.mem_iff_getElem.mp hn
  rw [Array.getElem_toList, getElem_typeNames]
  exact fresh i (by simpa using hi)

end

/-- If no type nested in `outer` has the name, no type has the qualified name. -/
theorem ne_nestedName {name : String}
    (wellFormed : ∀ (i : Nat) d, t.records[i]? = some d → d.WellFormed i)
    (room : t.types.size ≤ Arena.capacity) (distinct : t.typeNames.toList.Nodup)
    (hn : IsName name) (around : outer.index < t.types.size)
    (free : ∀ (i : Nat) d, t.types[i]? = some d → d.outer = some outer → d.name ≠ name) {i : Nat}
    (hi : i < t.types.size) :
    t.typeName (.ofIndex i) ≠ nestedName (t.typeName outer) name := by
  intro same
  have index := TypeId.index_ofIndex (hi.trans_le room)
  have hd : t.type? (.ofIndex i) = some t.types[i] := by
    rw [type?, index, Array.getElem?_eq_getElem hi]
  have valid : t.types[i].record.WellFormed i := by
    refine wellFormed i _ ?_
    rw [getElem?_records, Array.getElem?_eq_getElem hi]
    rfl
  cases ho : t.types[i].outer with
  | none =>
    have whole : nestedSeparator ∉ (qualify t.types[i].space t.types[i].name).toList :=
      whole_qualify valid.space valid.name
    rw [← typeName_top hd ho, same, toList_nestedName] at whole
    exact whole (List.mem_append_right _ List.mem_cons_self)
  | some o =>
    have earlier := valid.outer o ho
    rw [typeName_nested hd ho (by rwa [index])] at same
    obtain ⟨outside, own⟩ := nestedName_inj valid.name hn same
    obtain rfl := typeName_inj distinct (earlier.trans hi) around outside
    exact free i _ (Array.getElem?_eq_getElem hi) ho own

end Tables

end Graft
