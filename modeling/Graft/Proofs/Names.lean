import Graft.Module.Load
import Graft.Proofs.Checks

/-!
# What counts as a name

The checks of names accept simple names and namespaces, and nothing else. A namespace is empty or
has one reading as simple names without dots, joined by dots.
-/

namespace Graft

/-! ## Pieces of texts -/

namespace Text

variable {separator : Char} {cs front rest : List Char}

theorem pieces_of_notMem (h : separator ∉ cs) : pieces separator cs = [cs] := by
  induction cs with
  | nil => rfl
  | cons c cs ih =>
    rw [List.mem_cons, not_or] at h
    rw [pieces, if_neg (Ne.symm h.1), ih h.2]
    rfl

theorem pieces_append (h : separator ∉ front) :
    pieces separator (front ++ separator :: rest) = front :: pieces separator rest := by
  rw [pieces_append_cons, pieces_of_notMem h, List.singleton_append]

/-- Parts without the separator are the pieces of the text in which it joins them. -/
theorem pieces_intercalate {parts : List (List Char)} (filled : parts ≠ [])
    (apart : ∀ part ∈ parts, separator ∉ part) :
    pieces separator ([separator].intercalate parts) = parts := by
  induction parts with
  | nil => exact absurd rfl filled
  | cons part parts ih =>
    obtain ⟨first, later⟩ := List.forall_mem_cons.mp apart
    cases parts with
    | nil => rw [List.intercalate_singleton, pieces_of_notMem first]
    | cons next parts =>
      rw [List.intercalate_cons_cons, List.append_assoc, List.singleton_append,
        pieces_append first, ih (List.cons_ne_nil _ _) later]

theorem intercalate_consFirst (c : Char) {parts : List (List Char)} (filled : parts ≠ []) :
    [separator].intercalate (consFirst c parts) = c :: [separator].intercalate parts := by
  match parts, filled with
  | [part], _ => rfl
  | part :: next :: parts, _ => rfl

/-- Nothing gets lost. -/
theorem intercalate_pieces (cs : List Char) :
    [separator].intercalate (pieces separator cs) = cs := by
  induction cs with
  | nil => rfl
  | cons c cs ih =>
    have filled := pieces_ne_nil separator cs
    rw [pieces]
    split
    · rename_i same
      subst same
      obtain ⟨part, parts, split⟩ := List.exists_cons_of_ne_nil filled
      rw [split] at ih ⊢
      rw [List.intercalate_cons_cons, ih]
      rfl
    · rw [intercalate_consFirst c filled, ih]

/-- The separator stands between the pieces only. -/
theorem notMem_of_mem_pieces {part : List Char} (h : part ∈ pieces separator cs) :
    separator ∉ part := by
  induction cs generalizing part with
  | nil =>
    rw [List.mem_singleton.mp h]
    exact List.not_mem_nil
  | cons c cs ih =>
    rw [pieces] at h
    split at h
    · rcases List.mem_cons.mp h with rfl | h
      · exact List.not_mem_nil
      · exact ih h
    · rename_i other
      obtain ⟨first, parts, split⟩ := List.exists_cons_of_ne_nil (pieces_ne_nil separator cs)
      rw [split] at h ih
      rcases List.mem_cons.mp h with rfl | h
      · rw [List.mem_cons, not_or]
        exact ⟨Ne.symm other, ih List.mem_cons_self⟩
      · exact ih (List.mem_cons_of_mem _ h)

end Text

/-! ## Simple names -/

/-- A simple name is not empty and has neither blanks nor separators in it. -/
structure IsName (name : String) : Prop where
  filled : name ≠ ""
  whole : nestedSeparator ∉ name.toList
  solid : ∀ c ∈ name.toList, Text.isBlank c = false

theorem checkName_eq_ok {name : String} : checkName name = .ok () ↔ IsName name := by
  have empty : name.toList = [] ↔ name = "" := String.toList_eq_nil_iff
  rw [checkName]
  split
  · rename_i h
    exact iff_of_false nofun fun valid => valid.filled (empty.mp h)
  split
  · rename_i h
    exact iff_of_false nofun fun valid => valid.whole (List.contains_iff_mem.mp h)
  split
  · rename_i h
    obtain ⟨c, hc, blank⟩ := List.any_eq_true.mp h
    exact iff_of_false nofun fun valid => absurd blank (by simp [valid.solid c hc])
  · rename_i filled whole solid
    refine iff_of_true rfl ⟨fun h => filled (empty.mpr h), fun h => whole ?_, ?_⟩
    · exact List.contains_iff_mem.mpr h
    · simpa using solid

theorem Tables.requireName_eq_ok {name : String} :
    Tables.requireName name = .ok () ↔ IsName name := by
  rw [← checkName_eq_ok, Tables.requireName]
  cases checkName name <;> simp [Except.mapError]

/-! ## Namespaces -/

/-- A namespace is empty or made of simple names without dots, joined by dots. -/
def IsNamespace (space : String) : Prop :=
  space = "" ∨ ∃ parts : List String, parts ≠ [] ∧
    (∀ part ∈ parts, IsName part ∧ '.' ∉ part.toList) ∧ space = ".".intercalate parts

/-- The pieces between the dots are the only reading there is. -/
theorem isNamespace_iff {space : String} :
    IsNamespace space ↔
      space = "" ∨ ∀ part ∈ Text.pieces '.' space.toList, IsName (String.ofList part) := by
  refine or_congr_right ⟨?_, fun h => ?_⟩
  · rintro ⟨parts, filled, names, rfl⟩ part hp
    have apart : ∀ p ∈ parts.map String.toList, '.' ∉ p := by
      intro p hp
      obtain ⟨name, hn, rfl⟩ := List.mem_map.mp hp
      exact (names name hn).2
    have dot : ".".toList = ['.'] := rfl
    rw [String.toList_intercalate, dot, Text.pieces_intercalate (by simpa using filled) apart] at hp
    obtain ⟨name, hn, rfl⟩ := List.mem_map.mp hp
    rw [String.ofList_toList]
    exact (names name hn).1
  · refine ⟨(Text.pieces '.' space.toList).map String.ofList, ?_, ?_, ?_⟩
    · simpa using Text.pieces_ne_nil '.' space.toList
    · intro name hn
      obtain ⟨part, hp, rfl⟩ := List.mem_map.mp hn
      rw [String.toList_ofList]
      exact ⟨h part hp, Text.notMem_of_mem_pieces hp⟩
    · rw [← String.toList_inj, String.toList_intercalate, List.map_map]
      have same : String.toList ∘ String.ofList = id := funext fun _ => String.toList_ofList
      rw [same, List.map_id]
      exact (Text.intercalate_pieces _).symm

theorem checkNamespace_eq_ok {space : String} :
    checkNamespace space = .ok () ↔ IsNamespace space := by
  rw [isNamespace_iff, checkNamespace]
  split
  · rename_i h
    exact iff_of_true rfl (.inl (String.toList_eq_nil_iff.mp h))
  · rename_i filled
    rw [or_iff_right fun h => filled (String.toList_eq_nil_iff.mpr h), forM_eq_ok]
    exact forall₂_congr fun _ _ => checkName_eq_ok

theorem Tables.requireNamespace_eq_ok {space : String} :
    Tables.requireNamespace space = .ok () ↔ IsNamespace space := by
  rw [← checkNamespace_eq_ok, Tables.requireNamespace]
  cases checkNamespace space <;> simp [Except.mapError]

end Graft
