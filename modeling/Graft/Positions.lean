import Graft.Id
import Std.Data.HashMap

/-!
# Positions of handles

The index that finds the position of a handle in a list of handles. A handle that stands in the list
more than once is found at the last place.
-/

namespace Graft

/-- For each handle of a list, the last place where it stands. -/
structure Positions where
  places : Std.HashMap InsnId Nat

namespace Positions

/-- The index of a list of handles. -/
def ofList (ids : List InsnId) : Positions :=
  ⟨ids.zipIdx.foldl (fun places (id, position) => places.insert id position) ∅⟩

/-- The position of a handle. -/
def find? (p : Positions) (id : InsnId) : Option Nat := p.places[id]?

/-- What is true of everything that is put into an index, and of what was there before, is true of
all that can be found in it. -/
theorem of_getElem?_foldl_insert {holds : InsnId → Nat → Prop} {pairs : List (InsnId × Nat)}
    {places : Std.HashMap InsnId Nat} (added : ∀ pair ∈ pairs, holds pair.1 pair.2)
    (kept : ∀ (id : InsnId) (i : Nat), places[id]? = some i → holds id i) (id : InsnId) (i : Nat)
    (h : (pairs.foldl (fun places (id, position) => places.insert id position) places)[id]?
      = some i) : holds id i := by
  induction pairs generalizing places with
  | nil => exact kept id i h
  | cons pair rest ih =>
    refine ih (fun p hp => added p (List.mem_cons_of_mem _ hp)) ?_ h
    intro id i found
    rw [Std.HashMap.getElem?_insert] at found
    split at found
    · rename_i same
      obtain rfl := Option.some.inj found
      obtain rfl := eq_of_beq same
      exact added pair List.mem_cons_self
    · exact kept id i found

/-- What the index finds holds the handle. -/
theorem getElem?_of_find? {ids : List InsnId} {id : InsnId} {i : Nat}
    (h : (ofList ids).find? id = some i) : ids[i]? = some id := by
  let holds (id : InsnId) (i : Nat) : Prop := ids[i]? = some id
  have added : ∀ pair ∈ ids.zipIdx, holds pair.1 pair.2 := by
    intro pair member
    exact List.mem_zipIdx_iff_getElem?.mp member
  have kept : ∀ (id : InsnId) (i : Nat), (∅ : Std.HashMap InsnId Nat)[id]? = some i →
      holds id i := by
    intro id i found
    simp at found
  exact of_getElem?_foldl_insert added kept id i h

/-- What the index finds is a place of the list. -/
theorem lt_length_of_find? {ids : List InsnId} {id : InsnId} {i : Nat}
    (h : (ofList ids).find? id = some i) : i < ids.length :=
  (List.getElem?_eq_some_iff.mp (getElem?_of_find? h)).1

end Positions

end Graft
