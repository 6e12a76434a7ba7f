import Graft.Module.Load
import Graft.Proofs.Outcomes
import Graft.Proofs.Slots

/-!
# Where loading puts instructions

Loading gives handles in method order and body order. The handle of position `p` in the body of
method `i` is the slot `firstSlot i + p`, where `firstSlot i` counts the instructions of the methods
before; and every slot is one of these.
-/

namespace Graft

/-- How many instructions the body of a method has. -/
def Method.instructionCount {V C L : Type} (d : Method (Body V C L)) : Nat :=
  d.body.elim 0 fun b => b.code.length

/-- A method with its body placed behind so many slots. -/
def Method.placeAt (d : Method FileBody) (first : Nat) : Method LiveBody :=
  { d with body := d.body.map (FileBody.place · first) }

/-- How many instructions the bodies of methods have together. -/
def slotCount {V C L : Type} (ds : List (Method (Body V C L))) : Nat :=
  (ds.map Method.instructionCount).foldr (· + ·) 0

@[simp] theorem slotCount_append_singleton {V C L : Type} {ds : List (Method (Body V C L))}
    {d : Method (Body V C L)} : slotCount (ds ++ [d]) = slotCount ds + d.instructionCount := by
  induction ds with
  | nil => simp [slotCount]
  | cons e ds ih =>
    rw [List.cons_append]
    simp only [slotCount, List.map_cons, List.foldr_cons] at ih ⊢
    rw [ih, Nat.add_assoc]

namespace Placement

variable {ds : List (Method FileBody)} {d : Method FileBody} {i p : Nat}

/-- How many slots are taken up by the methods before the one with the index. -/
def firstSlot (ds : List (Method FileBody)) (i : Nat) : Nat := slotCount (ds.take i)

theorem firstSlot_append_singleton (h : i ≤ ds.length) :
    firstSlot (ds ++ [d]) i = firstSlot ds i := by
  rw [firstSlot, List.take_append_of_le_length h, firstSlot]

@[simp] theorem firstSlot_length : firstSlot ds ds.length = slotCount ds := by
  rw [firstSlot, List.take_length]

/-- The methods and the arena after the bodies of methods were placed. -/
structure Placed (ds : List (Method FileBody)) (methods : Array (Method LiveBody)) (a : Arena) :
    Prop where
  size : a.size = slotCount ds
  length : methods.size = ds.length
  method : ∀ i : Nat, methods[i]? = ds[i]?.map fun d => d.placeAt (firstSlot ds i)
  slot : ∀ (i : Nat) d b p x, ds[i]? = some d → d.body = some b → b.code[p]? = some x →
    a.slots[firstSlot ds i + p]? =
      some ⟨x.mapLabels fun q => .ofIndex (firstSlot ds i + q.toNat), some (.ofIndex i)⟩
  origin : ∀ n s, a.slots[n]? = some s → ∃ (i : Nat) (d : Method FileBody) (b : FileBody) (p : Nat),
    ds[i]? = some d ∧ d.body = some b ∧ p < b.code.length ∧ n = firstSlot ds i + p ∧
      s.owner = some (.ofIndex i)

theorem placed_nil : Placed [] #[] Arena.empty where
  size := rfl
  length := rfl
  method _ := rfl
  slot _ _ _ _ _ h := by simp at h
  origin n s h := by simp [Arena.empty] at h

theorem fst_place (k : MethodId) (a : Arena) : (d.place k a).1 = d.placeAt a.size := by
  obtain ⟨owner, name, flags, signature, body⟩ := d
  cases body <;> rfl

/-- What placing a method adds to the slots. -/
theorem toList_slots_place (k : MethodId) (a : Arena) :
    (d.place k a).2.slots.toList =
      a.slots.toList ++
        (d.body.elim [] fun b => FileBody.instructions b a.size).map (Slot.mk · (some k)) := by
  unfold Method.place
  cases d.body with
  | none => simp
  | some b => exact Arena.toList_slots_append

theorem size_place (k : MethodId) (a : Arena) :
    (d.place k a).2.size = a.size + d.instructionCount := by
  rw [Arena.size, ← Array.length_toList, toList_slots_place, Method.instructionCount]
  cases d.body <;> simp [Arena.size, FileBody.instructions]

theorem getElem?_place_of_lt {k : MethodId} {a : Arena} {n : Nat} (h : n < a.size) :
    (d.place k a).2.slots[n]? = a.slots[n]? := by
  rw [← Array.getElem?_toList, toList_slots_place, List.getElem?_append_left h,
    Array.getElem?_toList]

theorem getElem?_place_of_le {k : MethodId} {a : Arena} {n : Nat} (h : a.size ≤ n) :
    (d.place k a).2.slots[n]? =
      (d.body.elim [] fun b => FileBody.instructions b a.size)[n - a.size]?.map
        (Slot.mk · (some k)) := by
  rw [← Array.getElem?_toList, toList_slots_place, List.getElem?_append_right h, List.getElem?_map]
  rfl

/-- The slots of the body that is placed. -/
theorem slot_place {k : MethodId} {a : Arena} {b : FileBody} {x : Instruction UInt32}
    (hb : d.body = some b) (hx : b.code[p]? = some x) :
    (d.place k a).2.slots[a.size + p]? =
      some ⟨x.mapLabels fun q => .ofIndex (a.size + q.toNat), some k⟩ := by
  rw [getElem?_place_of_le (Nat.le_add_right _ _), Nat.add_sub_cancel_left, hb, Option.elim_some,
    FileBody.instructions, List.getElem?_map, hx]
  rfl

/-- There are no others than those from before and these. -/
theorem exists_of_slot_place {k : MethodId} {a : Arena} {n : Nat} {s : Slot} (hn : a.size ≤ n)
    (hs : (d.place k a).2.slots[n]? = some s) : ∃ (b : FileBody) (p : Nat),
      d.body = some b ∧ p < b.code.length ∧ n = a.size + p ∧ s.owner = some k := by
  rw [getElem?_place_of_le hn] at hs
  cases hb : d.body with
  | none => simp [hb] at hs
  | some b =>
    rw [hb, Option.elim_some] at hs
    obtain ⟨x, hx, rfl⟩ := Option.map_eq_some_iff.mp hs
    have hp := (List.getElem?_eq_some_iff.mp hx).1
    rw [FileBody.instructions, List.length_map] at hp
    exact ⟨b, n - a.size, rfl, hp, by omega, rfl⟩

/-- Placing one more method. -/
theorem Placed.snoc {methods : Array (Method LiveBody)} {a : Arena} (h : Placed ds methods a)
    (d : Method FileBody) :
    Placed (ds ++ [d]) (methods.push (d.place (.ofIndex ds.length) a).1)
      (d.place (.ofIndex ds.length) a).2 := by
  have old : ∀ i, i < ds.length → (ds ++ [d])[i]? = ds[i]? := fun _ => List.getElem?_append_left
  have last : (ds ++ [d])[ds.length]? = some d := List.getElem?_concat_length
  have first : firstSlot (ds ++ [d]) ds.length = a.size := by
    rw [firstSlot_append_singleton le_rfl, firstSlot_length, h.size]
  constructor
  case size => rw [size_place, h.size, slotCount_append_singleton]
  case length => simp [h.length]
  case method =>
    intro i
    rw [Array.getElem?_push, h.length]
    split
    · subst i
      rw [last, first, fst_place]
      rfl
    · rename_i hne
      rw [h.method]
      by_cases hi : i < ds.length
      · rw [old i hi, firstSlot_append_singleton hi.le]
      · rw [List.getElem?_eq_none (by omega), List.getElem?_eq_none (by simp; omega)]
        rfl
  case slot =>
    intro i e b p x he hb hx
    by_cases hi : i < ds.length
    · rw [old i hi] at he
      rw [firstSlot_append_singleton hi.le]
      have slot := h.slot i e b p x he hb hx
      rw [getElem?_place_of_lt (Array.getElem?_eq_some_iff.mp slot).1]
      exact slot
    · obtain rfl : i = ds.length := by
        have := (List.getElem?_eq_some_iff.mp he).1
        rw [List.length_append, List.length_singleton] at this
        omega
      obtain rfl : d = e := Option.some.inj (last.symm.trans he)
      rw [first]
      exact slot_place hb hx
  case origin =>
    intro n s hs
    rcases Nat.lt_or_ge n a.size with before | new
    · rw [getElem?_place_of_lt before] at hs
      obtain ⟨i, e, b, p, he, hb, hp, rfl, owner⟩ := h.origin n s hs
      have hi := (List.getElem?_eq_some_iff.mp he).1
      exact ⟨i, e, b, p, (old i hi).trans he, hb, hp, by rw [firstSlot_append_singleton hi.le],
        owner⟩
    · obtain ⟨b, p, hb, hp, rfl, owner⟩ := exists_of_slot_place new hs
      exact ⟨ds.length, d, b, p, last, hb, hp, by rw [first], owner⟩

theorem placed_placeMethods (methods : Array (Method FileBody)) :
    Placed methods.toList (ModuleFile.placeMethods methods).1
      (ModuleFile.placeMethods methods).2 := by
  unfold ModuleFile.placeMethods
  induction methods.toList using List.reverseRecOn with
  | nil => exact placed_nil
  | append_singleton ds d ih =>
    rw [List.zipIdx_append, List.foldl_append]
    have := ih.snoc d
    simpa using this

end Placement

end Graft
