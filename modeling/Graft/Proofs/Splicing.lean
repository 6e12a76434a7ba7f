import Graft.Proofs.Likeness
import Graft.Proofs.Refinement

/-!
# Taking out what was put in

A fragment that is put into a body can be lifted out of it again, and is what it was. The labels of
the block lead into the block, so they are found there, and the labels of what stands around it do
not, so the ranges around it neither come along nor stand in the way. A copy of part of a body is
the case that the fragment was lifted out of a body before.
-/

namespace Graft

/-! ## Lifting -/

namespace FileBody

variable {v : FileBody} {f : Fragment} {name : String} {first last p n : Nat}

theorem isInside_eq_true {l : UInt32} :
    isInside first last l = true ↔ first ≤ l.toNat ∧ l.toNat ≤ last := by
  rw [isInside, Bool.and_eq_true, decide_eq_true_eq, decide_eq_true_eq]

/-- Instructions whose jumps stay inside can be lifted. -/
theorem liftCode_eq_ok (inside : ∀ i ∈ (v.code.drop first).take (last + 1 - first),
    ∀ l ∈ i.targets, isInside first last l = true) :
    v.liftCode name first last = .ok
      (((v.code.drop first).take (last + 1 - first)).map (·.mapLabels (·.toNat - first))) :=
  mapM_zipIdx_eq_ok_map fun _ i hi => Instruction.mapLabelsM_eq_ok fun l hl => by
    rw [inside?, if_pos (inside i hi l hl)]

/-- The part of a range in positions `first` to `last`, if it is not cut. -/
def liftedRange (first last : Nat) (r : ExceptionRange UInt32) : Option (ExceptionRange Nat) :=
  if r.markers.all (isInside first last) then some (r.mapLabels (·.toNat - first)) else none

theorem liftedRange_of_inside {r : ExceptionRange UInt32}
    (inside : ∀ l ∈ r.markers, isInside first last l = true) :
    liftedRange first last r = some (r.mapLabels (·.toNat - first)) :=
  if_pos (List.all_eq_true.mpr inside)

theorem liftedRange_eq_some {r : ExceptionRange UInt32} {s : ExceptionRange Nat} :
    liftedRange first last r = some s ↔
      (∀ l ∈ r.markers, isInside first last l = true) ∧ r.mapLabels (·.toNat - first) = s := by
  rw [liftedRange, Option.ite_none_right_eq_some, List.all_eq_true, Option.some.injEq]

theorem liftedRange_of_outside {r : ExceptionRange UInt32}
    (outside : ∀ l ∈ r.markers, isInside first last l = false) :
    liftedRange first last r = none := by
  refine if_neg fun all => ?_
  have start := List.all_eq_true.mp all r.tryStart r.tryStart_mem_markers
  rw [outside _ r.tryStart_mem_markers] at start
  cases start

/-- So can ranges that lie inside or outside as a whole. -/
theorem liftRanges_eq_ok (whole : ∀ r ∈ v.ranges, (∀ l ∈ r.markers, isInside first last l = true) ∨
    ∀ l ∈ r.markers, isInside first last l = false) :
    v.liftRanges name first last = .ok (v.ranges.map (liftedRange first last)) := by
  refine mapM_zipIdx_eq_ok_map fun _ r hr => ?_
  rcases whole r hr with inside | outside
  · have found : ∀ l ∈ r.markers, inside? first last l = some (l.toNat - first) := fun l hl =>
      if_pos (inside l hl)
    rw [liftedRange_of_inside inside]
    refine (if_neg fun none => ?_).trans (map_eq_ok.mpr
      ⟨_, ExceptionRange.mapLabelsM_of_markers fun l hl => by rw [found l hl], rfl⟩)
    have start := List.all_eq_true.mp none r.tryStart r.tryStart_mem_markers
    rw [found _ r.tryStart_mem_markers] at start
    cases start
  · rw [liftedRange_of_outside outside]
    refine if_pos (List.all_eq_true.mpr fun l hl => ?_)
    rw [inside?, outside l hl]
    rfl

/-! ## The block in a view -/

/-- The labels of a block lead into it. -/
theorem toNat_ofNat_add {l : Nat} (hl : l < n) (room : p + n ≤ Arena.capacity) :
    (UInt32.ofNat (p + l)).toNat = p + l :=
  UInt32.toNat_ofNat_of_lt (show p + l < Arena.capacity by omega)

theorem toNat_ofNat_add_sub {l : Nat} (hl : l < n) (room : p + n ≤ Arena.capacity) :
    (UInt32.ofNat (p + l)).toNat - p = l := by
  rw [toNat_ofNat_add hl room, Nat.add_sub_cancel_left]

theorem isInside_ofNat_add {l : Nat} (hl : l < n) (room : p + n ≤ Arena.capacity) :
    isInside p (p + n - 1) (.ofNat (p + l)) = true := by
  rw [isInside_eq_true, toNat_ofNat_add hl room]
  omega

/-- The labels around it do not. -/
theorem isInside_shiftLabel {l : UInt32} (hn : 0 < n) (room : l.toNat + n < Arena.capacity) :
    isInside p (p + n - 1) (shiftLabel p n l) = false := by
  have place : (UInt32.ofNat (l.toNat + n)).toNat = l.toNat + n := UInt32.toNat_ofNat_of_lt room
  rw [Bool.eq_false_iff, ne_eq, isInside_eq_true, shiftLabel]
  split <;> omega

@[simp] theorem length_code_splice :
    (v.splice p f).code.length = v.code.length + f.code.length := by
  have parts := congrArg List.length (List.take_append_drop p v.code)
  rw [List.length_append] at parts
  simp only [splice, insertBlock, List.length_append, List.length_map]
  omega

/-- The block stands at the positions from the one on in front of which it was put. -/
theorem take_drop_splice (hp : p ≤ v.code.length) :
    ((v.splice p f).code.drop p).take f.code.length =
      f.code.map (·.mapLabels fun l => .ofNat (p + l)) := by
  have front : ((v.code.take p).map
      (·.mapLabels (shiftLabel p (f.code.map (·.mapLabels fun l => UInt32.ofNat (p + l))).length))
      ).length = p := by
    rw [List.length_map, List.length_take, Nat.min_eq_left hp]
  rw [splice, insertBlock, List.append_assoc, List.drop_left' front,
    List.take_left' (List.length_map _)]

/-- The instructions of the fragment come out as they were. -/
theorem liftCode_splice (filled : f.code ≠ []) (hp : p ≤ v.code.length)
    (room : v.code.length + f.code.length ≤ Arena.capacity) :
    (v.splice p f).liftCode name p (p + f.code.length - 1) = .ok f.code := by
  have count := List.length_pos_iff.mpr filled
  have span : p + f.code.length - 1 + 1 - p = f.code.length := by omega
  have block := take_drop_splice (f := f) hp
  rw [liftCode_eq_ok, span, block, List.map_map]
  · refine congrArg _ ((List.map_congr_left fun i hi => ?_).trans (List.map_id _))
    rw [Function.comp, Instruction.mapLabels_mapLabels]
    exact Instruction.mapLabels_eq_self fun l hl =>
      toNat_ofNat_add_sub (f.targets_lt i hi l hl) (by omega)
  · rw [span, block, List.forall_mem_map]
    intro i hi
    rw [Instruction.targets_mapLabels, List.forall_mem_map]
    exact fun l hl => isInside_ofNat_add (f.targets_lt i hi l hl) (by omega)

/-- The ranges of the fragment come out, and none of those that were there. -/
theorem liftRanges_splice (closed : v.Closed) (filled : f.code ≠ []) (hp : p ≤ v.code.length)
    (room : v.code.length + f.code.length ≤ Arena.capacity) :
    ∃ ranges, (v.splice p f).liftRanges name p (p + f.code.length - 1) = .ok ranges ∧
      f.ranges = ranges.filterMap id := by
  have count := List.length_pos_iff.mpr filled
  have length : (f.code.map (·.mapLabels fun l => UInt32.ofNat (p + l))).length = f.code.length :=
    List.length_map _
  have ranges : (v.splice p f).ranges = f.ranges.map (·.mapLabels fun l => .ofNat (p + l)) ++
      v.ranges.map (·.mapLabels (shiftLabel p f.code.length)) := by
    rw [splice, insertBlock, length]
  have new : ∀ r ∈ f.ranges, ∀ l ∈ (r.mapLabels fun l => UInt32.ofNat (p + l)).markers,
      isInside p (p + f.code.length - 1) l = true := by
    intro r hr
    rw [ExceptionRange.markers_mapLabels, List.forall_mem_map]
    exact fun l hl => isInside_ofNat_add (f.markers_lt r hr l hl) (by omega)
  have old : ∀ r ∈ v.ranges, ∀ l ∈ (r.mapLabels (shiftLabel p f.code.length)).markers,
      isInside p (p + f.code.length - 1) l = false := by
    intro r hr
    rw [ExceptionRange.markers_mapLabels, List.forall_mem_map]
    exact fun l hl => isInside_shiftLabel count (by have := closed.markers r hr l hl; omega)
  refine ⟨_, liftRanges_eq_ok ?_, ?_⟩
  · rw [ranges, List.forall_mem_append, List.forall_mem_map, List.forall_mem_map]
    exact ⟨fun r hr => .inl (new r hr), fun r hr => .inr (old r hr)⟩
  · have none : (v.ranges.map (·.mapLabels (shiftLabel p f.code.length))).filterMap
        (liftedRange p (p + f.code.length - 1)) = [] :=
      List.filterMap_eq_nil_iff.mpr (List.forall_mem_map.mpr fun r hr =>
        liftedRange_of_outside (old r hr))
    rw [List.filterMap_map, Function.id_comp, ranges, List.filterMap_append, none, List.append_nil,
      List.filterMap_map]
    refine (List.filterMap_some.symm.trans (List.filterMap_congr fun r hr => ?_))
    rw [Function.comp, liftedRange_of_inside (new r hr), ExceptionRange.mapLabels_mapLabels]
    exact congrArg some (ExceptionRange.mapLabels_eq_self fun l hl =>
      toNat_ofNat_add_sub (f.markers_lt r hr l hl) (by omega)).symm

end FileBody

/-! ## The block in a module -/

/-- Each instruction of the fragment was given a handle that no body has had, and these stand in the
body of `k` in order, from position `p` on. -/
structure Module.Inserted (m m' : Module) (k : MethodId) (p : Nat) (f : Fragment)
    (ids : List InsnId) : Prop where
  length : ids.length = f.code.length
  nodup : ids.Nodup
  unused : ∀ id ∈ ids, m.arena.slot? id = none
  elsewhere : ∀ j b, m.body? j = some b → ∀ id ∈ ids, id ∉ b.code
  stands : ∃ b, m'.body? k = some b ∧ ∀ i < ids.length, b.code[p + i]? = ids[i]?

namespace Module

variable {m m' : Module} {k : MethodId} {b : LiveBody} {v : FileBody} {f : Fragment} {p : Nat}

/-- What an edit makes of a body is seen in the module that it leaves. -/
theorem exists_body?_of_edit (linked : m.Linked) (hb : m.body? k = some b) {e : BodyEdit}
    (ok : (e.edit k).apply m = (.ok (), m')) (room : m'.arena.size ≤ Arena.capacity) :
    ∃ b', m'.body? k = some b' ∧ b'.Tied k m'.arena ∧ b.maxStack ≤ b'.maxStack ∧
      b'.locals = b.locals ∧
      b'.view m'.arena = { e.onView b.position (b.view m.arena) with maxStack := b'.maxStack } := by
  obtain ⟨c, a, rfl, new, depth, locals, view⟩ := exists_rebuilt_of_edit linked hb ok room
  rw [rebuilt_eq hb]
  refine ⟨_, body?_withBody_self (m := m.touch k) hb, new.withMaxStack _,
    depth ▸ le_raisedDepth, locals, ?_⟩
  rw [← view]
  rfl

/-- The body that a fragment was put into. -/
theorem exists_spliced {ids : List InsnId} (linked : m.Linked) (hb : m.body? k = some b)
    (h : (Edit.splice k p f).apply m = (.ok ids, m')) (room : m'.arena.size ≤ Arena.capacity) :
    ∃ b', m'.body? k = some b' ∧ b'.code = b.code.take p ++ ids ++ b.code.drop p ∧
      b.maxStack ≤ b'.maxStack ∧
      b'.view m'.arena = { (b.view m.arena).splice p f with maxStack := b'.maxStack } := by
  obtain ⟨b', hb', -, deep, -, view⟩ := exists_body?_of_edit linked hb (e := .splice p f)
    (Edit.apply_discard_ok.mpr ⟨ids, h⟩) room
  obtain ⟨c, hc, -, -, rfl, rfl⟩ := Edit.apply_splice_ok.mp h
  obtain rfl : b = c := Option.some.inj (hb.symm.trans hc)
  obtain ⟨depth, -, rfl⟩ := eq_of_body?_rebuilt hb hb'
  exact ⟨_, hb', rfl, deep, view⟩

/-- A fragment has as many instructions as the span that it was lifted out of. -/
theorem length_of_extract {first last : Nat} (h : m.extract k first last = .ok f) :
    first ≤ last ∧ f.code.length = last + 1 - first := by
  obtain ⟨b, -, -, ⟨order, inside⟩, code, -⟩ := extract_eq_ok.mp h
  refine ⟨order, ?_⟩
  rw [length_of_mapM_eq_ok code, List.length_zipIdx, LiveBody.span, List.length_take,
    List.length_drop]
  omega

/-- A fragment is found where it is seen. -/
theorem extract_of_view_splice (hb : m.body? k = some b) (h : b.Readable m.arena)
    (view : b.view m.arena = v.splice p f) (closed : v.Closed) (filled : f.code ≠ [])
    (hp : p ≤ v.code.length) : m.extract k p (p + f.code.length - 1) = .ok f := by
  have count := List.length_pos_iff.mpr filled
  have length : (v.splice p f).code.length = b.code.length := view ▸ LiveBody.length_code_view
  have room := LiveBody.length_le_capacity h.nodup
  rw [← length, FileBody.length_code_splice] at room
  rw [extract_eq_ok_view hb h, view, FileBody.length_code_splice]
  exact ⟨by omega, FileBody.liftCode_splice filled hp room,
    FileBody.liftRanges_splice closed filled hp room⟩

end Module

namespace Edit

variable {m m' : Module} {k source : MethodId} {f : Fragment} {ids : List InsnId}
  {p first last : Nat}

theorem inserted_of_splice (linked : m.Linked) (room : m'.arena.size ≤ Arena.capacity)
    (h : (splice k p f).apply m = (.ok ids, m')) : m.Inserted m' k p f ids := by
  obtain ⟨b, hb, hp, -, rfl, rfl⟩ := apply_splice_ok.mp h
  have room : m.arena.size + f.code.length ≤ Arena.capacity := by
    simpa [Fragment.instructions] using room
  refine ⟨by simp, Arena.nodup_nextIds room, fun id hid => ?_, fun j c hc id hid => ?_, ?_⟩
  · exact Array.getElem?_eq_none ((Arena.mem_nextIds room).mp hid).1
  · exact (linked.tied hc).notMem_of_mem_nextIds room hid
  · rw [Module.rebuilt_eq hb]
    refine ⟨_, Module.body?_withBody_self (m := m.touch k) hb, fun i hi => ?_⟩
    exact Places.getElem?_inserted hp hi

theorem extract_of_splice (linked : m.Linked) (room : m'.arena.size ≤ Arena.capacity)
    (filled : f.code ≠ []) (h : (splice k p f).apply m = (.ok ids, m')) :
    m'.extract k p (p + f.code.length - 1) = .ok f := by
  obtain ⟨b, hb, hp, -⟩ := apply_splice_ok.mp h
  obtain ⟨b', hb', new, -, -, view⟩ := Module.exists_body?_of_edit linked hb (e := .splice p f)
    (apply_discard_ok.mpr ⟨ids, h⟩) room
  have closed := (linked.tied hb).readable.closed
  exact Module.extract_of_view_splice hb' new.readable view
    (v := { b.view m.arena with maxStack := b'.maxStack }) ⟨closed.targets, closed.markers⟩ filled
    (hp.trans_eq LiveBody.length_code_view.symm)

/-- To touch the body before makes no difference. -/
theorem apply_splice_touch_ok :
    (splice k p f).apply (m.touch k) = (.ok ids, m') ↔ (splice k p f).apply m = (.ok ids, m') := by
  simp only [apply_splice_ok, Module.rebuilt, Module.touch_touch]
  rfl

/-- A copy of part of a body is a fragment that is lifted out and put in. -/
theorem apply_copyRange_ok :
    (copyRange k source first last p).apply m = (.ok ids, m') ↔
      ∃ f, m.extract source first last = .ok f ∧ (splice k p f).apply m = (.ok ids, m') := by
  rw [copyRange, discard_then, apply_start_bind_ok]
  simp only [apply_check_bind_ok, apply_splice_touch_ok]
  constructor
  · rintro ⟨_, -, rest⟩
    exact rest
  · rintro ⟨f, lifted, h⟩
    obtain ⟨b, hb, -⟩ := apply_splice_ok.mp h
    exact ⟨b, hb, f, lifted, h⟩

end Edit

/-- In a linked module, a fragment that was put into a body has new handles, from the given position
on, and can be lifted out again just as it was. So can a copy of positions `first` to `last` of a
body, be it put into another body or into the middle of what was copied. -/
theorem extract_after_splice {m m' : Module} (linked : m.Linked)
    (room : m'.arena.size ≤ Arena.capacity) :
    (∀ k p (f : Fragment) ids, f.code ≠ [] → (Edit.splice k p f).apply m = (.ok ids, m') →
      m.Inserted m' k p f ids ∧ m'.extract k p (p + f.code.length - 1) = .ok f) ∧
    ∀ k source first last p ids,
      (Edit.copyRange k source first last p).apply m = (.ok ids, m') →
        ∃ f, m.extract source first last = .ok f ∧ m'.extract k p (p + (last - first)) = .ok f := by
  refine ⟨fun k p f ids filled h => ⟨Edit.inserted_of_splice linked room h,
    Edit.extract_of_splice linked room filled h⟩, fun k source first last p ids h => ?_⟩
  obtain ⟨f, lifted, h⟩ := Edit.apply_copyRange_ok.mp h
  obtain ⟨order, length⟩ := Module.length_of_extract lifted
  have back := Edit.extract_of_splice linked room (List.ne_nil_of_length_pos (by omega)) h
  have last : p + f.code.length - 1 = p + (last - first) := by omega
  exact ⟨f, lifted, last ▸ back⟩

/-- The whole body of the sample, with its range. -/
def Sample.whole : Fragment where
  code := [.nop, .leave 4, .pop, .leave 4, .ldcI4 7, .ret]
  ranges := [⟨.catching (.primitive .object), 0, 1, 2, 3⟩]
  targets_lt := by decide
  markers_lt := by decide

theorem Sample.extract_build : Sample.file.build.extract ⟨0⟩ 0 5 = .ok Sample.whole := by
  have readable := ((Placement.linked_build checked numbered).tied body?_build_zero).readable
  refine (Module.extract_eq_ok_view body?_build_zero readable).mpr
    ⟨by decide, by decide, [some ⟨.catching (.primitive .object), 0, 1, 2, 3⟩], ?_, rfl⟩
  decide

theorem Sample.exists_splice_whole {p : Nat} (hp : p ≤ 6) : ∃ m' ids,
    (Edit.splice ⟨0⟩ p Sample.whole).apply Sample.file.build = (.ok ids, m') ∧
      m'.arena.size ≤ Arena.capacity := by
  have plain : ∀ i ∈ Sample.whole.code, i.field? = none ∧ i.method? = none ∧ i.type? = none ∧
      i.loc? = none ∧ i.arg? = none := by decide
  refine ⟨_, _, Edit.apply_splice_ok.mpr
    ⟨Sample.live, Sample.body?_build_zero, hp, fun i hi => ?_, rfl, rfl⟩, ?_⟩
  · obtain ⟨field, method, type, loc, arg⟩ := plain i hi
    exact ⟨.of_none field method type, .of_none loc arg⟩
  · rw [Module.arena_rebuilt, Arena.size_append]
    decide

/-- An instance: a body is copied into the middle of its own protected region. -/
theorem extract_after_splice_sample : ∃ m' ids,
    (Edit.copyRange ⟨0⟩ ⟨0⟩ 0 5 2).apply Sample.file.build = (.ok ids, m') ∧
      Sample.file.build.Inserted m' ⟨0⟩ 2 Sample.whole ids ∧
      m'.extract ⟨0⟩ 2 7 = .ok Sample.whole := by
  obtain ⟨m', ids, put, room⟩ := Sample.exists_splice_whole (p := 2) (by decide)
  have copied : (Edit.copyRange ⟨0⟩ ⟨0⟩ 0 5 2).apply Sample.file.build = (.ok ids, m') :=
    Edit.apply_copyRange_ok.mpr ⟨_, Sample.extract_build, put⟩
  have linked := Placement.linked_build Sample.checked Sample.numbered
  obtain ⟨splices, copies⟩ := extract_after_splice linked room
  obtain ⟨inserted, -⟩ := splices _ _ _ _ (by decide) put
  obtain ⟨f, lifted, back⟩ := copies _ _ _ _ _ _ copied
  obtain rfl : Sample.whole = f := Except.ok.inj (Sample.extract_build.symm.trans lifted)
  exact ⟨m', ids, copied, inserted, back⟩

end Graft
