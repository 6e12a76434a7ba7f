import Graft.Proofs.Frame
import Graft.Proofs.View

/-!
# Edits by position

What the edits of a body mean for somebody who sees bodies by position. Here labels do move when
instructions are put in or taken out; the edits themselves move none, since handles stay with their
instructions. Each edit does to the view of a body what is said here.
-/

namespace Graft

/-! ## Labels that move -/

/-- Labels from position `p` on move behind `n` instructions that are put in front of it. -/
def shiftLabel (p n : Nat) (l : UInt32) : UInt32 :=
  if l.toNat < p then l else .ofNat (l.toNat + n)

/-- Labels behind positions `first` to `last` move down when these are taken out. -/
def lowerLabel (first last : Nat) (l : UInt32) : UInt32 :=
  if last < l.toNat then .ofNat (l.toNat - (last + 1 - first)) else l

/-! ## Edits of views -/

namespace FileBody

variable (v : FileBody)

/-- Put instructions and ranges, whose labels are those of the result, in front of a position. -/
def insertBlock (p : Nat) (code : List (Instruction UInt32))
    (ranges : List (ExceptionRange UInt32)) : FileBody :=
  { v with
    code := (v.code.take p).map (·.mapLabels (shiftLabel p code.length)) ++ code ++
      (v.code.drop p).map (·.mapLabels (shiftLabel p code.length))
    ranges := ranges ++ v.ranges.map (·.mapLabels (shiftLabel p code.length)) }

/-- Insert an instruction whose labels are those from before. -/
def insertAt (p : Nat) (i : Instruction UInt32) : FileBody :=
  insertBlock v p [i.mapLabels (shiftLabel p 1)] []

/-- Add instructions at the end; no label moves. -/
def append (code : List (Instruction UInt32)) : FileBody := { v with code := v.code ++ code }

/-- Does a label lie in positions `first` to `last`? -/
def isInside (first last : Nat) (l : UInt32) : Bool := first ≤ l.toNat && l.toNat ≤ last

/-- Take out positions `first` to `last` and the ranges that lie in them. -/
def removeRange (first last : Nat) : FileBody :=
  { v with
    code := (v.code.take first ++ v.code.drop (last + 1)).map (·.mapLabels (lowerLabel first last))
    ranges := (v.ranges.filter fun r => ! r.markers.all (isInside first last)).map
      (·.mapLabels (lowerLabel first last)) }

/-- Put an instruction in the place of another; no label moves. -/
def replaceAt (p : Nat) (i : Instruction UInt32) : FileBody := { v with code := v.code.set p i }

/-- Put a fragment in front of a position, and its ranges in front of those that are there. -/
def splice (p : Nat) (f : Fragment) : FileBody :=
  insertBlock v p (f.code.map (·.mapLabels fun l => .ofNat (p + l)))
    (f.ranges.map (·.mapLabels fun l => .ofNat (p + l)))

end FileBody

namespace LiveBody

variable {k : MethodId} {a : Arena} {b : LiveBody} {id old : InsnId} {p first last : Nat}
  {i : Instruction InsnId}

/-! ## Insertions -/

section Block

variable {code : List (Instruction InsnId)}

/-- A handle that was in the body. -/
theorem Tied.position_insert (h : Tied k a b) {n : Nat} (room : a.size + n ≤ Arena.capacity)
    (hid : id ∈ b.code) :
    (b.insert p (a.nextIds n)).position id = shiftLabel p n (b.position id) := by
  have fresh : id ∉ a.nextIds n := fun hn => h.notMem_of_mem_nextIds room hn hid
  rw [position, shiftLabel, toNat_position h.nodup hid, position]
  show UInt32.ofNat ((b.code.take p ++ a.nextIds n ++ b.code.drop p).idxOf id) = _
  rw [Places.idxOf_insert hid fresh, Arena.length_nextIds]
  split <;> rfl

/-- A handle that is new. -/
theorem Tied.position_inserted (h : Tied k a b) {n l : Nat} (room : a.size + n ≤ Arena.capacity)
    (hp : p ≤ b.code.length) (hl : l < n) :
    (b.insert p (a.nextIds n)).position (.ofIndex (a.size + l)) = .ofNat (p + l) := by
  have member := List.mem_of_getElem? (Arena.getElem?_nextIds (a := a) hl)
  rw [position]
  show UInt32.ofNat ((b.code.take p ++ a.nextIds n ++ b.code.drop p).idxOf _) = _
  rw [Places.idxOf_inserted hp member (h.notMem_of_mem_nextIds room member),
    Arena.idxOf_nextIds room hl]

/-- The new handles stand for the new instructions, one by one. -/
theorem map_nextIds {β : Type} (f : Instruction InsnId → β)
    (room : a.size + code.length ≤ Arena.capacity) :
    (a.nextIds code.length).map (fun id => f (((a.append k code).get? id).getD .nop)) =
      code.map f := by
  refine List.ext_getElem? fun p => ?_
  by_cases hp : p < code.length
  · rw [List.getElem?_map, List.getElem?_map, Arena.getElem?_nextIds hp, Option.map_some,
      Arena.get?_append_ofIndex room hp, List.getElem?_eq_getElem hp]
    rfl
  · rw [List.getElem?_eq_none (by simp; omega), List.getElem?_eq_none (by simp; omega)]

/-- What was in the body is seen with its labels shifted. -/
theorem Tied.viewInstruction_insert (h : Tied k a b) (room : a.size + code.length ≤ Arena.capacity)
    (hid : id ∈ b.code) :
    viewInstruction (a.append k code) (b.insert p (a.nextIds code.length)) id =
      (viewInstruction a b id).mapLabels (shiftLabel p code.length) := by
  obtain ⟨i, hi⟩ := h.exists_get? hid
  rw [viewInstruction, viewInstruction, h.get?_append hid, hi, Option.getD_some,
    Instruction.mapLabels_mapLabels]
  exact Instruction.mapLabels_congr fun l hl => h.position_insert room (h.targets id hid i hi l hl)

/-- Putting new instructions in front of a position is the same for the view, once their labels are
those of the result. -/
theorem Tied.view_insertBlock (h : Tied k a b) (ranges : List (ExceptionRange InsnId))
    (room : a.size + code.length ≤ Arena.capacity) :
    LiveBody.view (a.append k code)
        { b.insert p (a.nextIds code.length) with ranges := ranges ++ b.ranges } =
      (b.view a).insertBlock p
        (code.map (·.mapLabels (b.insert p (a.nextIds code.length)).position))
        (ranges.map (·.mapLabels (b.insert p (a.nextIds code.length)).position)) := by
  have old : ∀ ids : List InsnId, (∀ id ∈ ids, id ∈ b.code) →
      ids.map (viewInstruction (a.append k code) (b.insert p (a.nextIds code.length))) =
        (ids.map (viewInstruction a b)).map (·.mapLabels (shiftLabel p code.length)) := by
    intro ids sub
    rw [List.map_map]
    exact List.map_congr_left fun id hid => h.viewInstruction_insert room (sub id hid)
  have new := map_nextIds (a := a) (k := k)
    (·.mapLabels (b.insert p (a.nextIds code.length)).position) room
  have front := old (b.code.take p) fun _ => List.mem_of_mem_take
  have back := old (b.code.drop p) fun _ => List.mem_of_mem_drop
  have oldRanges : b.ranges.map (·.mapLabels (b.insert p (a.nextIds code.length)).position) =
      (b.ranges.map (·.mapLabels b.position)).map (·.mapLabels (shiftLabel p code.length)) := by
    rw [List.map_map]
    refine List.map_congr_left fun r hr => ?_
    rw [Function.comp, ExceptionRange.mapLabels_mapLabels]
    exact ExceptionRange.mapLabels_congr fun l hl => h.position_insert room (h.markers r hr l hl)
  unfold view FileBody.insertBlock
  congr 1
  · show (b.code.take p ++ a.nextIds code.length ++ b.code.drop p).map _ = _
    rw [List.map_append, List.map_append, List.length_map, ← List.map_take, ← List.map_drop]
    exact congrArg₂ (· ++ ·) (congrArg₂ (· ++ ·) front new) back
  · rw [List.map_append, List.length_map]
    exact congrArg (_ ++ ·) oldRanges

theorem Tied.view_insertAt (h : Tied k a b) (room : a.size + [i].length ≤ Arena.capacity)
    (targets : ∀ l ∈ i.targets, l ∈ b.code) :
    LiveBody.view (a.append k [i]) (b.insert p (a.nextIds 1)) =
      (b.view a).insertAt p (i.mapLabels b.position) := by
  refine (h.view_insertBlock (p := p) [] room).trans ?_
  have labels : i.mapLabels (b.insert p (a.nextIds [i].length)).position =
      (i.mapLabels b.position).mapLabels (shiftLabel p 1) := by
    rw [Instruction.mapLabels_mapLabels]
    exact Instruction.mapLabels_congr fun l hl => h.position_insert room (targets l hl)
  rw [FileBody.insertAt, ← labels]
  rfl

/-- Behind the last position there is no label to shift. -/
theorem Tied.view_append (h : Tied k a b) (room : a.size + code.length ≤ Arena.capacity)
    (targets : ∀ i ∈ code, ∀ l ∈ i.targets, l ∈ b.code) :
    LiveBody.view (a.append k code) (b.insert b.code.length (a.nextIds code.length)) =
      (b.view a).append (code.map (·.mapLabels b.position)) := by
  have still : ∀ l ∈ b.code, (b.insert b.code.length (a.nextIds code.length)).position l =
      b.position l := by
    intro l hl
    rw [h.position_insert room hl, shiftLabel, toNat_position h.nodup hl,
      if_pos (List.idxOf_lt_length_of_mem hl)]
  have old : b.code.map (viewInstruction (a.append k code)
      (b.insert b.code.length (a.nextIds code.length))) = b.code.map (viewInstruction a b) := by
    refine List.map_congr_left fun id hid => ?_
    obtain ⟨i, hi⟩ := h.exists_get? hid
    rw [viewInstruction, viewInstruction, h.get?_append hid, hi]
    exact Instruction.mapLabels_congr fun l hl => still l (h.targets id hid i hi l hl)
  have new : (a.nextIds code.length).map (viewInstruction (a.append k code)
      (b.insert b.code.length (a.nextIds code.length))) = code.map (·.mapLabels b.position) := by
    refine (map_nextIds (·.mapLabels (b.insert b.code.length (a.nextIds code.length)).position)
      room).trans (List.map_congr_left fun i hi => ?_)
    exact Instruction.mapLabels_congr fun l hl => still l (targets i hi l hl)
  have ranges :
      b.ranges.map (·.mapLabels (b.insert b.code.length (a.nextIds code.length)).position) =
      b.ranges.map (·.mapLabels b.position) :=
    List.map_congr_left fun r hr =>
      ExceptionRange.mapLabels_congr fun l hl => still l (h.markers r hr l hl)
  unfold view FileBody.append
  congr 1
  show (b.code.take b.code.length ++ a.nextIds code.length ++ b.code.drop b.code.length).map _ = _
  rw [List.take_length, List.drop_length, List.append_nil, List.map_append, old, new]

/-- A fragment that is put into a body refers to its own new handles only. -/
theorem Tied.splice (h : Tied k a b) {f : Fragment}
    (room : a.size + f.code.length ≤ Arena.capacity) :
    Tied k (a.append k (f.instructions a.size))
      { b.insert p (a.nextIds f.code.length) with ranges := f.liveRanges a.size ++ b.ranges } := by
  have count : (f.instructions a.size).length = f.code.length := List.length_map _
  rw [← count] at room ⊢
  refine h.insertBlock _ room ?_ ?_ <;> rw [count]
  · exact fun i hi l hl => .inr (mem_nextIds_of_target hi hl)
  · exact fun r hr l hl => mem_nextIds_of_marker hr hl

/-- The labels of a fragment become positions behind the one where it starts. -/
theorem Tied.view_splice (h : Tied k a b) {f : Fragment}
    (room : a.size + f.code.length ≤ Arena.capacity) (hp : p ≤ b.code.length) :
    LiveBody.view (a.append k (f.instructions a.size))
        { b.insert p (a.nextIds f.code.length) with ranges := f.liveRanges a.size ++ b.ranges } =
      (b.view a).splice p f := by
  have count : (f.instructions a.size).length = f.code.length := List.length_map _
  have label : ∀ l < f.code.length,
      (b.insert p (a.nextIds f.code.length)).position (.ofIndex (a.size + l)) = .ofNat (p + l) :=
    fun l hl => h.position_inserted room hp hl
  have code : (f.instructions a.size).map
      (·.mapLabels (b.insert p (a.nextIds f.code.length)).position) =
      f.code.map (·.mapLabels fun l => .ofNat (p + l)) := by
    rw [Fragment.instructions, List.map_map]
    refine List.map_congr_left fun i hi => ?_
    rw [Function.comp, Instruction.mapLabels_mapLabels]
    exact Instruction.mapLabels_congr fun l hl => label l (f.targets_lt i hi l hl)
  have ranges : (f.liveRanges a.size).map
      (·.mapLabels (b.insert p (a.nextIds f.code.length)).position) =
      f.ranges.map (·.mapLabels fun l => .ofNat (p + l)) := by
    rw [Fragment.liveRanges, List.map_map]
    refine List.map_congr_left fun r hr => ?_
    rw [Function.comp, ExceptionRange.mapLabels_mapLabels]
    exact ExceptionRange.mapLabels_congr fun l hl => label l (f.markers_lt r hr l hl)
  rw [FileBody.splice, ← code, ← ranges]
  have block := h.view_insertBlock (p := p) (f.liveRanges a.size) (count.symm ▸ room)
  rwa [count] at block

end Block

/-! ## Removals -/

theorem position_without (distinct : b.code.Nodup) (hs : first ≤ last)
    (hid : id ∈ (b.without first last).code) :
    (b.without first last).position id = lowerLabel first last (b.position id) := by
  have hm := ((mem_code_without distinct).mp hid).1
  have side := (Places.mem_without distinct).mp hid
  rw [position, lowerLabel, toNat_position distinct hm, position]
  show UInt32.ofNat ((b.code.take first ++ b.code.drop (last + 1)).idxOf id) = _
  rw [Places.idxOf_without distinct hs hid]
  split
  · rw [if_neg (by omega)]
  · rw [if_pos (by omega)]

/-- A range goes if all its markers are seen inside. -/
theorem keeps_eq (distinct : b.code.Nodup) {r : ExceptionRange InsnId}
    (markers : ∀ l ∈ r.markers, l ∈ b.code) :
    Module.keeps (b.span first last) r =
      ! (r.mapLabels b.position).markers.all (FileBody.isInside first last) := by
  rw [Module.keeps, ExceptionRange.markers_mapLabels, List.all_map]
  congr 1
  rw [Bool.eq_iff_iff, List.all_eq_true, List.all_eq_true]
  refine forall₂_congr fun l hl => ?_
  rw [List.contains_iff_mem, mem_span distinct, Function.comp, FileBody.isInside,
    toNat_position distinct (markers l hl)]
  simp [markers l hl]

theorem Tied.view_without (h : Tied k a b) (hs : first ≤ last)
    (jumps : ∀ p id, b.code[p]? = some id → p < first ∨ last < p →
      ∀ i, a.get? id = some i → ∀ l ∈ i.targets, l ∉ b.span first last)
    (whole : ∀ r ∈ b.ranges.filter (Module.keeps (b.span first last)), ∀ l ∈ r.markers,
      l ∉ b.span first last) :
    LiveBody.view (a.releaseAll (b.span first last))
        { b.without first last with
          ranges := b.ranges.filter (Module.keeps (b.span first last)) } =
      (b.view a).removeRange first last := by
  have sub : ∀ r ∈ b.ranges.filter (Module.keeps (b.span first last)), r ∈ b.ranges :=
    fun _ => List.mem_of_mem_filter
  have tied := h.without hs jumps sub whole
  have label : ∀ l ∈ (b.without first last).code,
      (b.without first last).position l = lowerLabel first last (b.position l) :=
    fun l hl => position_without h.nodup hs hl
  have code : ∀ id ∈ (b.without first last).code,
      viewInstruction (a.releaseAll (b.span first last)) (b.without first last) id =
        (viewInstruction a b id).mapLabels (lowerLabel first last) := by
    intro id hid
    obtain ⟨i, hi⟩ := h.exists_get? ((mem_code_without h.nodup).mp hid).1
    rw [viewInstruction, viewInstruction, Arena.get?_releaseAll, hi, Option.getD_some,
      Instruction.mapLabels_mapLabels]
    refine Instruction.mapLabels_congr fun l hl => label l (tied.targets id hid i ?_ l hl)
    rw [Arena.get?_releaseAll, hi]
  have kept : b.ranges.filter (Module.keeps (b.span first last)) =
      b.ranges.filter
        ((fun r => ! r.markers.all (FileBody.isInside first last)) ∘ (·.mapLabels b.position)) :=
    List.filter_congr fun r hr => keeps_eq h.nodup (h.markers r hr)
  unfold view FileBody.removeRange
  congr 1
  · show (b.code.take first ++ b.code.drop (last + 1)).map _ = _
    rw [← List.map_take, ← List.map_drop, ← List.map_append, List.map_map]
    exact List.map_congr_left code
  · rw [List.filter_map, ← kept, List.map_map]
    refine List.map_congr_left fun r hr => ?_
    rw [Function.comp, ExceptionRange.mapLabels_mapLabels]
    exact ExceptionRange.mapLabels_congr fun l hl => label l (tied.markers r hr l hl)

/-! ## Replacements -/

/-- A label that follows is seen where it was. -/
theorem Tied.position_replace (h : Tied k a b) (room : a.size < Arena.capacity)
    (hold : b.code[p]? = some old) (hid : id ∈ b.code) :
    (b.replace p (follow old (.ofIndex a.size)) (.ofIndex a.size)).position
      (follow old (.ofIndex a.size) id) = b.position id :=
  congrArg UInt32.ofNat (Places.idxOf_set h.nodup hold (h.next_notMem room) hid)

/-- Labels that follow the new handle are where they were. -/
theorem Tied.mapLabels_replace (h : Tied k a b) (room : a.size < Arena.capacity)
    (hold : b.code[p]? = some old) {j : Instruction InsnId} (hj : ∀ l ∈ j.targets, l ∈ b.code) :
    (j.mapLabels (follow old (.ofIndex a.size))).mapLabels
        (b.replace p (follow old (.ofIndex a.size)) (.ofIndex a.size)).position =
      j.mapLabels b.position := by
  rw [Instruction.mapLabels_mapLabels]
  exact Instruction.mapLabels_congr fun l hl => h.position_replace room hold (hj l hl)

theorem Tied.viewInstruction_replace_new (h : Tied k a b) (room : a.size < Arena.capacity)
    (hold : b.code[p]? = some old) (targets : ∀ l ∈ i.targets, l ∈ b.code) :
    viewInstruction (a.replace k old i (b.code.set p (.ofIndex a.size)))
        (b.replace p (follow old (.ofIndex a.size)) (.ofIndex a.size)) (.ofIndex a.size) =
      i.mapLabels b.position := by
  have inside : ∀ id ∈ b.code, id.index < a.size := fun _ => h.index_lt_size
  have length : p < b.code.length := (List.getElem?_eq_some_iff.mp hold).1
  rw [viewInstruction, get?_replace room h.nodup inside hold (List.mem_set length _), if_pos rfl,
    Option.map_some, Option.getD_some, h.mapLabels_replace room hold targets]

theorem Tied.viewInstruction_replace_old (h : Tied k a b) (room : a.size < Arena.capacity)
    (hold : b.code[p]? = some old) {id : InsnId} (hid : id ∈ b.code) (hne : id ≠ old) :
    viewInstruction (a.replace k old i (b.code.set p (.ofIndex a.size)))
        (b.replace p (follow old (.ofIndex a.size)) (.ofIndex a.size)) id =
      viewInstruction a b id := by
  have inside : ∀ id ∈ b.code, id.index < a.size := fun _ => h.index_lt_size
  have other : id ≠ .ofIndex a.size := fun same => h.next_notMem room (same ▸ hid)
  have stays : id ∈ b.code.set p (.ofIndex a.size) :=
    (Places.mem_set hold h.nodup).mpr (.inr ⟨hid, hne⟩)
  obtain ⟨j, hj⟩ := h.exists_get? hid
  rw [viewInstruction, viewInstruction, get?_replace room h.nodup inside hold stays, if_neg other,
    hj, Option.map_some, Option.getD_some, Option.getD_some,
    h.mapLabels_replace room hold (h.targets id hid j hj)]

theorem Tied.view_replace (h : Tied k a b) (room : a.size < Arena.capacity)
    (hold : b.code[p]? = some old) (targets : ∀ l ∈ i.targets, l ∈ b.code) :
    LiveBody.view (a.replace k old i (b.code.set p (.ofIndex a.size)))
        (b.replace p (follow old (.ofIndex a.size)) (.ofIndex a.size)) =
      (b.view a).replaceAt p (i.mapLabels b.position) := by
  have length : p < b.code.length := (List.getElem?_eq_some_iff.mp hold).1
  unfold view FileBody.replaceAt
  congr 1
  · refine List.ext_getElem? fun n => ?_
    show ((b.code.set p (.ofIndex a.size)).map _)[n]? = _
    rw [List.getElem?_map, List.getElem?_set, List.getElem?_set, List.length_map, List.getElem?_map]
    by_cases hn : p = n
    · rw [if_pos hn, if_pos hn, if_pos length, if_pos length, Option.map_some,
        h.viewInstruction_replace_new room hold targets]
    · rw [if_neg hn, if_neg hn]
      cases hid : b.code[n]? with
      | none => rfl
      | some id =>
        -- the old handle stands at `p` only, so the one at `n` is another
        have hne : id ≠ old := by
          rintro rfl
          exact hn ((Places.idxOf_of_getElem? h.nodup hold).symm.trans
            (Places.idxOf_of_getElem? h.nodup hid))
        rw [Option.map_some, Option.map_some,
          h.viewInstruction_replace_old room hold (List.mem_of_getElem? hid) hne]
  · show (b.ranges.map _).map _ = _
    rw [List.map_map]
    refine List.map_congr_left fun r hr => ?_
    rw [Function.comp, ExceptionRange.mapLabels_mapLabels]
    exact ExceptionRange.mapLabels_congr fun l hl =>
      h.position_replace room hold (h.markers r hr l hl)

theorem Tied.view_assign (h : Tied k a b) (hid : b.code[p]? = some id) :
    LiveBody.view (a.modifyAll [id] fun _ => i) b =
      (b.view a).replaceAt p (i.mapLabels b.position) := by
  have length : p < b.code.length := (List.getElem?_eq_some_iff.mp hid).1
  have code : b.code.map (viewInstruction (a.modifyAll [id] fun _ => i) b) =
      (b.code.map (viewInstruction a b)).set p (i.mapLabels b.position) := by
    refine List.ext_getElem? fun n => ?_
    rw [List.getElem?_map, List.getElem?_set, List.length_map, List.getElem?_map]
    by_cases hn : p = n
    · subst hn
      obtain ⟨j, hj⟩ := h.exists_get? (List.mem_of_getElem? hid)
      rw [if_pos rfl, if_pos length, hid, Option.map_some, viewInstruction, get?_assign,
        if_pos rfl, hj]
      rfl
    · rw [if_neg hn]
      cases hx : b.code[n]? with
      | none => rfl
      | some x =>
        have other : x ≠ id := by
          rintro rfl
          exact hn ((Places.idxOf_of_getElem? h.nodup hid).symm.trans
            (Places.idxOf_of_getElem? h.nodup hx))
        rw [Option.map_some, Option.map_some, viewInstruction, get?_assign, if_neg other,
          viewInstruction]
  rw [view, code]
  rfl

end LiveBody

end Graft
