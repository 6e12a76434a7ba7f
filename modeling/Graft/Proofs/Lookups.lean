import Graft.Proofs.QualifiedNames

/-!
# Looking up what was named

A type is found by its qualified name only, and each type has a qualified name of its own. So a
look-up undoes naming: the text is taken apart at the separators from the front, the name was put
together from the back, and both agree because own names have no separator in them.
-/

namespace Graft

/-! ## Texts -/

section

variable {separator : Char} {cs last : List Char} {s outer name : String}

/-- What follows the last separator is the last piece. -/
theorem Text.pieces_concat (h : separator ∉ last) (cs : List Char) :
    pieces separator (cs ++ separator :: last) = pieces separator cs ++ [last] := by
  rw [pieces_append_cons, pieces_of_notMem h]

theorem splitNested_of_whole (h : nestedSeparator ∉ s.toList) : splitNested s = (s, []) := by
  rw [splitNested, Text.pieces_of_notMem h]
  simp

theorem splitNested_nestedName (h : nestedSeparator ∉ name.toList) :
    splitNested (nestedName outer name) =
      ((splitNested outer).1, (splitNested outer).2 ++ [name]) := by
  rw [splitNested, splitNested, toList_nestedName, Text.pieces_concat h]
  obtain ⟨first, rest, split⟩ :=
    List.exists_cons_of_ne_nil (Text.pieces_ne_nil nestedSeparator outer.toList)
  simp [split]

/-- A text with separators is the name of a nested type, as far as texts go. -/
theorem exists_nestedName (h : nestedSeparator ∈ s.toList) :
    ∃ outer name, nestedSeparator ∉ name.toList ∧ s = nestedName outer name := by
  obtain ⟨back, front, split, whole⟩ := List.eq_append_cons_of_mem (List.mem_reverse.mpr h)
  refine ⟨String.ofList front.reverse, String.ofList back.reverse, by simpa using whole, ?_⟩
  rw [← String.toList_inj, toList_nestedName, String.toList_ofList, String.toList_ofList,
    ← List.reverse_reverse s.toList, split]
  simp

end

/-! ## Tables with distinct names -/

theorem find?_eq_some_of_unique {α : Type} {p : α → Bool} {as : List α} {a : α}
    (unique : ∀ x ∈ as, ∀ y ∈ as, p x → p y → x = y) :
    as.find? p = some a ↔ a ∈ as ∧ p a := by
  constructor
  · intro found
    exact ⟨List.mem_of_find?_eq_some found, List.find?_some found⟩
  · rintro ⟨ha, hp⟩
    obtain ⟨b, found⟩ := Option.isSome_iff_exists.mp (List.find?_isSome.mpr ⟨a, ha, hp⟩)
    have hb := List.mem_of_find?_eq_some found
    rw [found, unique b hb a ha (List.find?_some found) hp]

namespace Tables

variable {β : Type} {t : Tables Members β} {id outer owner : TypeId} {f : FieldId}
  {s name : String}

/-- Types are in order and called differently, and so are the fields of each type; and types list
the types and fields that name them. Only entries that an index can stand for count. -/
structure Legible (t : Tables Members β) : Prop where
  types : ∀ id d, t.type? id = some d → d.record.WellFormed id.index
  names : ∀ id id', (t.type? id).isSome → (t.type? id').isSome →
    t.typeName id = t.typeName id' → id = id'
  members : ∀ f f' d d', t.field? f = some d → t.field? f' = some d' → d.owner = d'.owner →
    d.name = d'.name → f = f'
  nested : ∀ id outer, id ∈ t.nestedOf outer ↔ ∃ d, t.type? id = some d ∧ d.outer = some outer
  fields : ∀ f owner, f ∈ t.fieldsOf owner ↔ ∃ d, t.field? f = some d ∧ d.owner = owner

namespace Legible

/-- The type around a nested one stands earlier. -/
theorem exists_outer (h : t.Legible) {d : TypeDef Members} (hd : t.type? id = some d)
    (nested : d.outer = some outer) :
    outer.index < id.index ∧ (t.type? outer).isSome ∧
      t.typeName id = nestedName (t.typeName outer) d.name := by
  have earlier := (h.types id d hd).outer outer nested
  have inside := (Array.getElem?_eq_some_iff.mp hd).1
  refine ⟨earlier, ?_, typeName_nested hd nested earlier⟩
  rw [type?, Array.getElem?_eq_getElem (earlier.trans inside)]
  rfl

theorem findTopType_eq_some (h : t.Legible) :
    t.findTopType s = some id ↔
      ∃ d, t.type? id = some d ∧ d.outer = none ∧ qualify d.space d.name = s := by
  have means (x : TypeId) :
      (t.type? x).any (fun d => d.outer = none && qualify d.space d.name = s) = true ↔
        ∃ d, t.type? x = some d ∧ d.outer = none ∧ qualify d.space d.name = s := by
    simp [Option.any_eq_true]
  rw [findTopType, find?_eq_some_of_unique, means]
  · exact and_iff_right_of_imp fun ⟨d, hd, _⟩ => mem_typeIds_of_type? hd
  · intro x _ y _ hx hy
    obtain ⟨d, hd, top, rfl⟩ := (means x).mp hx
    obtain ⟨e, he, top', same⟩ := (means y).mp hy
    refine h.names x y (by simp [hd]) (by simp [he]) ?_
    rw [typeName_top hd top, typeName_top he top', same]

theorem findNestedType_eq_some (h : t.Legible) :
    t.findNestedType outer name = some id ↔
      ∃ d, t.type? id = some d ∧ d.outer = some outer ∧ d.name = name := by
  rw [findNestedType, find?_eq_some_of_unique, h.nested]
  · cases t.type? id <;> simp
  · intro x hx y hy hx' hy'
    obtain ⟨d, hd, nested⟩ := (h.nested x outer).mp hx
    obtain ⟨e, he, nested'⟩ := (h.nested y outer).mp hy
    have same : d.name = e.name := by
      simp only [hd, he, Option.any_some, decide_eq_true_eq] at hx' hy'
      rw [hx', hy']
    refine h.names x y (by simp [hd]) (by simp [he]) ?_
    rw [(h.exists_outer hd nested).2.2, (h.exists_outer he nested').2.2, same]

theorem findField_eq_some (h : t.Legible) :
    t.findField owner name = some f ↔
      ∃ d, t.field? f = some d ∧ d.owner = owner ∧ d.name = name := by
  rw [findField, find?_eq_some_of_unique, h.fields]
  · cases t.field? f <;> simp
  · intro x hx y hy hx' hy'
    obtain ⟨d, hd, member⟩ := (h.fields x owner).mp hx
    obtain ⟨e, he, member'⟩ := (h.fields y owner).mp hy
    have same : d.name = e.name := by
      simp only [hd, he, Option.any_some, decide_eq_true_eq] at hx' hy'
      rw [hx', hy']
    exact h.members x y d e hd he (member.trans member'.symm) same

end Legible

/-! ## Types -/

theorem findType_of_whole (h : nestedSeparator ∉ s.toList) : t.findType s = t.findTopType s := by
  rw [findType, splitNested_of_whole h]
  rfl

theorem findType_nestedName (h : nestedSeparator ∉ name.toList) (outer : String) :
    t.findType (nestedName outer name) =
      (t.findType outer).bind (t.findNestedType · name) := by
  rw [findType, findType, splitNested_nestedName h]
  simp only [List.foldl_concat]

namespace Legible

/-- A type is found by its name. The induction is on where it stands: the type around it comes
first. -/
theorem findType_typeName (h : t.Legible) (there : (t.type? id).isSome) :
    t.findType (t.typeName id) = some id := by
  induction hi : id.index using Nat.strong_induction_on generalizing id with
  | _ i ih =>
    obtain ⟨d, hd⟩ := Option.isSome_iff_exists.mp there
    obtain ⟨space, name, -⟩ := h.types id d hd
    cases ho : d.outer with
    | none =>
      have whole : nestedSeparator ∉ (qualify d.space d.name).toList := whole_qualify space name
      rw [typeName_top hd ho, findType_of_whole whole]
      exact h.findTopType_eq_some.mpr ⟨d, hd, ho, rfl⟩
    | some outer =>
      obtain ⟨earlier, around, named⟩ := h.exists_outer hd ho
      have whole : nestedSeparator ∉ d.name.toList := name.whole
      rw [named, findType_nestedName whole, ih outer.index (hi ▸ earlier) around rfl]
      exact h.findNestedType_eq_some.mpr ⟨d, hd, ho, rfl⟩

/-- What is found by a name is called so. The induction is on the length of the name. -/
theorem typeName_of_findType (h : t.Legible) (found : t.findType s = some id) :
    (t.type? id).isSome ∧ t.typeName id = s := by
  induction hn : s.toList.length using Nat.strong_induction_on generalizing s id with
  | _ n ih =>
    by_cases whole : nestedSeparator ∉ s.toList
    · rw [findType_of_whole whole] at found
      obtain ⟨d, hd, top, rfl⟩ := h.findTopType_eq_some.mp found
      exact ⟨by simp [hd], typeName_top hd top⟩
    · obtain ⟨outer, name, own, rfl⟩ := exists_nestedName (not_not.mp whole)
      rw [findType_nestedName own] at found
      obtain ⟨o, around, inner⟩ := Option.bind_eq_some_iff.mp found
      have shorter : outer.toList.length < n := by
        rw [← hn, toList_nestedName, List.length_append, List.length_cons]
        omega
      obtain ⟨-, rfl⟩ := ih _ shorter around rfl
      obtain ⟨d, hd, nested, rfl⟩ := h.findNestedType_eq_some.mp inner
      exact ⟨by simp [hd], (h.exists_outer hd nested).2.2⟩

/-- A look-up undoes naming. -/
theorem findType_eq_some (h : t.Legible) :
    t.findType s = some id ↔ (t.type? id).isSome ∧ t.typeName id = s := by
  refine ⟨h.typeName_of_findType, ?_⟩
  rintro ⟨there, rfl⟩
  exact h.findType_typeName there

end Legible

end Tables

end Graft
