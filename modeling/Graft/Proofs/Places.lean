import Graft.Edit.Sequence
import Mathlib.Data.List.Nodup

/-!
# Places

Where a handle stands in a list of handles once others are put into the list, taken out of it or put
in the place of one. Bodies are such lists, and the edits change them in these three ways.
-/

namespace Graft.Places

variable {xs ids : List InsnId} {id old new : InsnId} {p first last : Nat}

/-- In a list without repetitions, the place that holds a handle is its only one. -/
theorem idxOf_of_getElem? (distinct : xs.Nodup) (h : xs[p]? = some id) : xs.idxOf id = p := by
  obtain ⟨hp, rfl⟩ := List.getElem?_eq_some_iff.mp h
  exact distinct.idxOf_getElem p hp

theorem getElem?_idxOf (h : id ∈ xs) : xs[xs.idxOf id]? = some id :=
  List.getElem?_idxOf h

theorem idxOf_inj (h : id ∈ xs) : xs.idxOf id = xs.idxOf old ↔ id = old :=
  List.idxOf_inj h

/-! ## Putting handles in front of a place -/

theorem mem_insert : id ∈ xs.take p ++ ids ++ xs.drop p ↔ id ∈ xs ∨ id ∈ ids := by
  have split : id ∈ xs ↔ id ∈ xs.take p ∨ id ∈ xs.drop p := by
    rw [← List.mem_append, List.take_append_drop]
  rw [split]
  simp only [List.mem_append]
  tauto

theorem nodup_insert (hxs : xs.Nodup) (hids : ids.Nodup) (apart : ∀ id ∈ ids, id ∉ xs) :
    (xs.take p ++ ids ++ xs.drop p).Nodup := by
  have moved : (xs.take p ++ ids ++ xs.drop p).Perm (ids ++ xs) := by
    rw [List.append_assoc]
    refine (List.perm_append_comm_assoc _ _ _).trans ?_
    rw [List.take_append_drop]
  rw [moved.nodup_iff, List.nodup_append]
  refine ⟨hids, hxs, ?_⟩
  rintro a ha _ hb rfl
  exact apart a ha hb

theorem idxOf_insert (h : id ∈ xs) (hn : id ∉ ids) :
    (xs.take p ++ ids ++ xs.drop p).idxOf id =
      if xs.idxOf id < p then xs.idxOf id else xs.idxOf id + ids.length := by
  split
  · rename_i hlt
    have front : id ∈ xs.take p := (List.mem_take_iff_idxOf_lt h).mpr hlt
    rw [List.append_assoc, List.idxOf_append_of_mem front]
    exact (List.take_prefix p xs).idxOf_eq_of_mem front
  · rename_i hge
    have front : id ∉ xs.take p := fun hm => hge ((List.mem_take_iff_idxOf_lt h).mp hm)
    have whole : xs.idxOf id = (xs.take p).length + (xs.drop p).idxOf id := by
      conv_lhs => rw [← List.take_append_drop p xs]
      exact List.idxOf_append_of_notMem front
    rw [List.append_assoc, List.idxOf_append_of_notMem front, List.idxOf_append_of_notMem hn,
      whole]
    omega

theorem idxOf_inserted (hp : p ≤ xs.length) (h : id ∈ ids) (hn : id ∉ xs) :
    (xs.take p ++ ids ++ xs.drop p).idxOf id = p + ids.idxOf id := by
  have front : id ∉ xs.take p := fun hm => hn (List.mem_of_mem_take hm)
  rw [List.append_assoc, List.idxOf_append_of_notMem front, List.idxOf_append_of_mem h,
    List.length_take, Nat.min_eq_left hp]

/-- Where the place `q` goes when `n` handles are put in front of the place `p`. -/
def shift (p n q : Nat) : Nat := if q < p then q else q + n

theorem shift_of_lt {n q : Nat} (h : q < p) : shift p n q = q := if_pos h

theorem shift_self {n : Nat} : shift p n p = p + n := if_neg (Nat.lt_irrefl p)

/-- The place behind another one stays behind it, unless the handles go in between. -/
theorem shift_succ {n q : Nat} (h : q + 1 ≠ p) : shift p n (q + 1) = shift p n q + 1 := by
  unfold shift
  split <;> split <;> omega

theorem shift_inj {n q q' : Nat} : shift p n q = shift p n q' ↔ q = q' := by
  unfold shift
  split <;> split <;> omega

/-- A place is one that was there before, or one of the new ones. -/
theorem exists_shift_or (p n x : Nat) : (∃ q, x = shift p n q) ∨ ∃ j < n, x = p + j := by
  by_cases front : x < p
  · exact .inl ⟨x, (if_pos front).symm⟩
  by_cases new : x < p + n
  · exact .inr ⟨x - p, by omega, by omega⟩
  · refine .inl ⟨x - n, ?_⟩
    rw [shift, if_neg (by omega)]
    omega

theorem shift_ne {n q j : Nat} (hj : j < n) : shift p n q ≠ p + j := by
  unfold shift
  split <;> omega

theorem getElem?_shift (hp : p ≤ xs.length) {q : Nat} :
    (xs.take p ++ ids ++ xs.drop p)[shift p ids.length q]? = xs[q]? := by
  have front : (xs.take p).length = p := by rw [List.length_take, Nat.min_eq_left hp]
  rw [shift, List.append_assoc]
  split
  · rename_i before
    rw [List.getElem?_append_left (by omega), List.getElem?_take_of_lt before]
  · rw [List.getElem?_append_right (by omega), List.getElem?_append_right (by omega),
      List.getElem?_drop, front]
    congr 1
    omega

theorem getElem?_inserted (hp : p ≤ xs.length) {j : Nat} (hj : j < ids.length) :
    (xs.take p ++ ids ++ xs.drop p)[p + j]? = ids[j]? := by
  have front : (xs.take p).length = p := by rw [List.length_take, Nat.min_eq_left hp]
  rw [List.append_assoc, List.getElem?_append_right (by omega), front, Nat.add_sub_cancel_left,
    List.getElem?_append_left hj]

/-! ## Taking out a span -/

/-- A handle stands in a span if its place does. -/
theorem mem_span (distinct : xs.Nodup) :
    id ∈ (xs.drop first).take (last + 1 - first) ↔
      id ∈ xs ∧ first ≤ xs.idxOf id ∧ xs.idxOf id ≤ last := by
  rw [List.mem_iff_getElem?]
  simp only [List.getElem?_take, List.getElem?_drop]
  constructor
  · rintro ⟨n, hn⟩
    split at hn
    · rename_i hlt
      have := idxOf_of_getElem? distinct hn
      exact ⟨List.mem_of_getElem? hn, by omega, by omega⟩
    · cases hn
  · rintro ⟨hm, hf, hl⟩
    refine ⟨xs.idxOf id - first, ?_⟩
    rw [if_pos (by omega), Nat.add_sub_cancel' hf]
    exact getElem?_idxOf hm

/-- A handle stays if it does not stand in the span. -/
theorem mem_without (distinct : xs.Nodup) :
    id ∈ xs.take first ++ xs.drop (last + 1) ↔
      id ∈ xs ∧ (xs.idxOf id < first ∨ last < xs.idxOf id) := by
  rw [List.mem_append]
  constructor
  · rintro (h | h)
    · have hm := List.mem_of_mem_take h
      exact ⟨hm, .inl ((List.mem_take_iff_idxOf_lt hm).mp h)⟩
    · obtain ⟨n, hn⟩ := List.mem_iff_getElem?.mp h
      rw [List.getElem?_drop] at hn
      have := idxOf_of_getElem? distinct hn
      exact ⟨List.mem_of_mem_drop h, .inr (by omega)⟩
  · rintro ⟨hm, h | h⟩
    · exact .inl ((List.mem_take_iff_idxOf_lt hm).mpr h)
    · refine .inr (List.mem_iff_getElem?.mpr ⟨xs.idxOf id - (last + 1), ?_⟩)
      rw [List.getElem?_drop, Nat.add_sub_cancel' (by omega)]
      exact getElem?_idxOf hm

theorem nodup_without (distinct : xs.Nodup) (ordered : first ≤ last + 1) :
    (xs.take first ++ xs.drop (last + 1)).Nodup := by
  have sub : (xs.take first ++ xs.drop (last + 1)).Sublist xs := by
    conv_rhs => rw [← List.take_append_drop first xs]
    refine List.Sublist.append_left ?_ _
    have : xs.drop (last + 1) = (xs.drop first).drop (last + 1 - first) := by
      rw [List.drop_drop, Nat.add_sub_cancel' ordered]
    rw [this]
    exact List.drop_sublist _ _
  exact sub.nodup distinct

theorem idxOf_without (distinct : xs.Nodup) (ordered : first ≤ last)
    (h : id ∈ xs.take first ++ xs.drop (last + 1)) :
    (xs.take first ++ xs.drop (last + 1)).idxOf id =
      if xs.idxOf id < first then xs.idxOf id else xs.idxOf id - (last + 1 - first) := by
  obtain ⟨hm, side⟩ := (mem_without distinct).mp h
  have hlt := List.idxOf_lt_length_of_mem hm
  refine idxOf_of_getElem? (nodup_without distinct (by omega)) ?_
  split
  · rename_i hf
    rw [List.getElem?_append_left (by rw [List.length_take]; omega), List.getElem?_take,
      if_pos hf]
    exact getElem?_idxOf hm
  · rw [List.getElem?_append_right (by rw [List.length_take]; omega), List.getElem?_drop,
      List.length_take, Nat.min_eq_left (by omega)]
    rw [show last + 1 + (xs.idxOf id - (last + 1 - first) - first) = xs.idxOf id by omega]
    exact getElem?_idxOf hm

/-! ## Putting a handle in the place of another -/

theorem nodup_set (distinct : xs.Nodup) (hn : new ∉ xs) : (xs.set p new).Nodup :=
  distinct.set hn

theorem mem_set (hp : xs[p]? = some old) (distinct : xs.Nodup) :
    id ∈ xs.set p new ↔ id = new ∨ (id ∈ xs ∧ id ≠ old) := by
  obtain ⟨hlt, hold⟩ := List.getElem?_eq_some_iff.mp hp
  constructor
  · intro h
    obtain ⟨n, hn⟩ := List.mem_iff_getElem?.mp h
    rw [List.getElem?_set] at hn
    split at hn
    · exact .inl (Option.some.inj hn).symm
    · rename_i hne
      refine .inr ⟨List.mem_of_getElem? hn, ?_⟩
      rintro rfl
      exact hne ((idxOf_of_getElem? distinct hp).symm.trans (idxOf_of_getElem? distinct hn))
  · rintro (rfl | ⟨hm, hne⟩)
    · exact List.mem_set hlt id
    · refine List.mem_iff_getElem?.mpr ⟨xs.idxOf id, ?_⟩
      have : p ≠ xs.idxOf id := by
        intro same
        rw [same, getElem?_idxOf hm] at hp
        exact hne (Option.some.inj hp)
      rw [List.getElem?_set_ne this]
      exact getElem?_idxOf hm

/-- The handle that follows the replaced one stands where that one stood. -/
theorem idxOf_set (distinct : xs.Nodup) (hp : xs[p]? = some old) (hn : new ∉ xs) (h : id ∈ xs) :
    (xs.set p new).idxOf (if id = old then new else id) = xs.idxOf id := by
  refine idxOf_of_getElem? (nodup_set distinct hn) ?_
  split
  · subst id
    rw [idxOf_of_getElem? distinct hp]
    exact List.getElem?_set_self (List.getElem?_eq_some_iff.mp hp).1
  · rename_i hne
    have : p ≠ xs.idxOf id := by
      intro same
      rw [same, getElem?_idxOf h] at hp
      exact hne (Option.some.inj hp)
    rw [List.getElem?_set_ne this]
    exact getElem?_idxOf h

end Graft.Places
