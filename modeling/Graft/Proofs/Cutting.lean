import Graft.Proofs.Undoing

/-!
# Cutting and pasting

Positions of a body can be lifted out of it if no jump leads out of them, and taken out of it if
none leads in, and no exception range may be cut in either case. If both can be done, what was
lifted can be put back where it was. Three kinds of labels are used on the way, positions in the
fragment, handles that stay, and handles that are new, and together they change nothing.
-/

namespace Graft

/-! ## Lists that are gone through to the end -/

section Lists

variable {α β ε : Type}

theorem exists_map_eq_ok {x : Except ε α} {f : α → β} :
    (∃ b, x.map f = .ok b) ↔ ∃ a, x = .ok a := by
  cases x <;> simp [Except.map]

theorem exists_mapM_eq_ok {f : α → Except ε β} {as : List α} :
    (∃ bs, as.mapM f = .ok bs) ↔ ∀ a ∈ as, ∃ b, f a = .ok b := by
  induction as with
  | nil => exact iff_of_true ⟨[], rfl⟩ nofun
  | cons a as ih =>
    rw [List.forall_mem_cons, ← ih]
    constructor
    · rintro ⟨_, h⟩
      obtain ⟨b, bs, hb, hbs, -⟩ := mapM_cons_eq_ok.mp h
      exact ⟨⟨b, hb⟩, bs, hbs⟩
    · rintro ⟨⟨b, hb⟩, bs, hbs⟩
      exact ⟨b :: bs, mapM_cons_eq_ok.mpr ⟨b, bs, hb, hbs, rfl⟩⟩

/-- The same if the places are known, but make no difference. -/
theorem exists_mapM_zipIdx_eq_ok {f : α × Nat → Except ε β} {P : α → Prop} {as : List α}
    (h : ∀ n, ∀ a ∈ as, (∃ b, f (a, n) = .ok b) ↔ P a) :
    (∃ bs, as.zipIdx.mapM f = .ok bs) ↔ ∀ a ∈ as, P a := by
  rw [exists_mapM_eq_ok]
  constructor
  · intro all a ha
    obtain ⟨n, hn⟩ := List.mem_iff_getElem?.mp ha
    exact (h n a ha).mp (all (a, n) (List.mem_zipIdx_iff_getElem?.mpr hn))
  · intro all pair hp
    have ha := List.fst_mem_of_mem_zipIdx hp
    exact (h pair.2 pair.1 ha).mpr (all pair.1 ha)

end Lists

/-! ## What can be cut -/

namespace LiveBody

/-- Positions `first` to `last` are positions of the body in this order, and no exception range has
markers both among them and outside. -/
structure Uncut (b : LiveBody) (first last : Nat) : Prop where
  order : first ≤ last
  inside : last < b.code.length
  ranges : ∀ r ∈ b.ranges,
    (∀ l ∈ r.markers, l ∈ b.span first last) ∨ ∀ l ∈ r.markers, l ∉ b.span first last

theorem nodup_span {b : LiveBody} {first last : Nat} (distinct : b.code.Nodup) :
    (b.span first last).Nodup :=
  ((List.take_sublist _ _).trans (List.drop_sublist _ _)).nodup distinct

/-- To release a span changes no slot of another method. -/
theorem Tied.frame_span {k : MethodId} {a : Arena} {b : LiveBody} {first last : Nat}
    (tied : b.Tied k a) : Arena.Frame k a (a.releaseAll (b.span first last)) :=
  Arena.frame_releaseAll fun id hid => (tied.owner_iff id).mpr ((mem_span tied.nodup).mp hid).1

end LiveBody

namespace Module

variable {m : Module} {k : MethodId} {b : LiveBody} {id : InsnId} {i : Instruction InsnId}
  {ids : List InsnId} {first last n : Nat}

theorem exists_liftInstruction (distinct : ids.Nodup) (hi : m.instruction? id = some i) :
    (∃ j, m.liftInstruction k (.ofList ids) id n = .ok j) ↔ ∀ l ∈ i.targets, l ∈ ids := by
  rw [liftInstruction, hi]
  constructor
  · rintro ⟨j, hj⟩ l hl
    obtain ⟨x, hx⟩ := exists_mapM_eq_ok.mp ⟨_, Instruction.targets_mapLabelsM hj⟩ l hl
    rw [Positions.find?_eq distinct] at hx
    by_contra outside
    rw [if_neg outside] at hx
    cases hx
  · intro inside
    refine ⟨_, Instruction.mapLabelsM_eq_ok (g := ids.idxOf) fun l hl => ?_⟩
    rw [Positions.find?_eq distinct, if_pos (inside l hl)]

theorem exists_liftRange? (distinct : ids.Nodup) {r : ExceptionRange InsnId} :
    (∃ s, m.liftRange? k (.ofList ids) r n = .ok s) ↔
      (∀ l ∈ r.markers, l ∈ ids) ∨ ∀ l ∈ r.markers, l ∉ ids := by
  have outside : (r.markers.all fun l => ((Positions.ofList ids).find? l).isNone) = true ↔
      ∀ l ∈ r.markers, l ∉ ids := by
    rw [List.all_eq_true]
    refine forall₂_congr fun l _ => ?_
    rw [Positions.find?_eq distinct]
    split <;> simp [*]
  rw [liftRange?]
  by_cases none : ∀ l ∈ r.markers, l ∉ ids
  · rw [if_pos (outside.mpr none)]
    exact iff_of_true ⟨_, rfl⟩ (.inr none)
  · rw [if_neg (outside.not.mpr none), or_iff_left none]
    constructor
    · rintro ⟨_, h⟩ l hl
      obtain ⟨s, hs, -⟩ := map_eq_ok.mp h
      obtain ⟨x, hx⟩ := ExceptionRange.exists_of_mapLabelsM hs l hl
      rw [Positions.find?_eq distinct] at hx
      by_contra out
      rw [if_neg out] at hx
      cases hx
    · intro inside
      refine ⟨_, map_eq_ok.mpr ⟨_, ExceptionRange.mapLabelsM_of_markers (g := ids.idxOf)
        fun l hl => ?_, rfl⟩⟩
      rw [Positions.find?_eq distinct, if_pos (inside l hl)]

/-- The instructions of a span can be lifted if no jump leads out of it. -/
theorem exists_mapM_liftInstruction (h : b.Readable m.arena) :
    (∃ code, ((b.span first last).zipIdx.mapM fun (id, p) =>
      m.liftInstruction k (.ofList (b.span first last)) id (first + p)) = .ok code) ↔
      ∀ id ∈ b.span first last, ∀ i, m.instruction? id = some i →
        ∀ l ∈ i.targets, l ∈ b.span first last := by
  refine exists_mapM_zipIdx_eq_ok fun n id hid => ?_
  obtain ⟨i, hi⟩ := h.stored id ((LiveBody.mem_span h.nodup).mp hid).1
  have hi : m.instruction? id = some i := hi
  rw [exists_liftInstruction (LiveBody.nodup_span h.nodup) hi, hi]
  simp

/-- And its ranges if none is cut. -/
theorem exists_mapM_liftRange? (h : b.Readable m.arena) :
    (∃ ranges, (b.ranges.zipIdx.mapM fun (r, n) =>
      m.liftRange? k (.ofList (b.span first last)) r n) = .ok ranges) ↔
      ∀ r ∈ b.ranges, (∀ l ∈ r.markers, l ∈ b.span first last) ∨
        ∀ l ∈ r.markers, l ∉ b.span first last :=
  exists_mapM_zipIdx_eq_ok fun _ _ _ => exists_liftRange? (LiveBody.nodup_span h.nodup)

/-- A span can be lifted out exactly if it cuts no range and no jump leads out of it. -/
theorem exists_extract (hb : m.body? k = some b) (h : b.Readable m.arena) :
    (∃ f, m.extract k first last = .ok f) ↔ b.Uncut first last ∧
      ∀ id ∈ b.span first last, ∀ i, m.instruction? id = some i →
        ∀ l ∈ i.targets, l ∈ b.span first last := by
  rw [← exists_map_eq_ok (f := fun f => (f.code, f.ranges)), map_extract]
  simp only [bind_eq_ok, body_eq_ok]
  constructor
  · rintro ⟨_, c, hc, _, span, _, hcode, _, hranges, -⟩
    obtain rfl : b = c := Option.some.inj (hb.symm.trans hc)
    obtain ⟨order, inside⟩ := checkSpan_eq_ok.mp span
    exact ⟨⟨order, inside, (exists_mapM_liftRange? h).mp ⟨_, hranges⟩⟩,
      (exists_mapM_liftInstruction h).mp ⟨_, hcode⟩⟩
  · rintro ⟨⟨order, inside, whole⟩, jumps⟩
    obtain ⟨code, hcode⟩ := (exists_mapM_liftInstruction (k := k) h).mpr jumps
    obtain ⟨ranges, hranges⟩ := (exists_mapM_liftRange? (k := k) h).mpr whole
    exact ⟨_, b, hb, (), checkSpan_eq_ok.mpr ⟨order, inside⟩, code, hcode, ranges, hranges, rfl⟩

/-- A span can be taken out exactly if it cuts no range and no jump leads into it. -/
theorem exists_removeRange (hb : m.body? k = some b) (h : b.Readable m.arena) :
    (∃ ids m', (Edit.removeRange k first last).apply m = (.ok ids, m')) ↔ b.Uncut first last ∧
      ∀ id ∈ b.code, id ∉ b.span first last → ∀ i, m.instruction? id = some i →
        ∀ l ∈ i.targets, l ∉ b.span first last := by
  have jumps : m.checkNoJumpsInto k b first last (b.span first last) = .ok () ↔
      ∀ id ∈ b.code, id ∉ b.span first last → ∀ i, m.instruction? id = some i →
        ∀ l ∈ i.targets, l ∉ b.span first last := by
    rw [checkNoJumpsInto_eq_ok]
    constructor
    · intro all id hid outside
      refine all _ id (Places.getElem?_idxOf hid) ?_
      rw [LiveBody.mem_span h.nodup] at outside
      have : ¬(first ≤ b.code.idxOf id ∧ b.code.idxOf id ≤ last) := fun within =>
        outside ⟨hid, within⟩
      omega
    · intro all p id hp outside
      refine all id (List.mem_of_getElem? hp) fun within => ?_
      rw [LiveBody.mem_span h.nodup, Places.idxOf_of_getElem? h.nodup hp] at within
      omega
  have ranges : (∃ ranges, m.survivors k b (b.span first last) = .ok ranges) ↔
      ∀ r ∈ b.ranges, (∀ l ∈ r.markers, l ∈ b.span first last) ∨
        ∀ l ∈ r.markers, l ∉ b.span first last := by
    rw [exists_survivors]
    refine forall₂_congr fun r _ => ?_
    rw [or_iff_not_imp_left]
    refine imp_congr_left ?_
    simp [keeps]
  simp only [Edit.apply_removeRange_ok]
  constructor
  · rintro ⟨_, _, c, rs, hc, ⟨order, inside⟩, hjumps, hranges, -⟩
    obtain rfl : b = c := Option.some.inj (hb.symm.trans hc)
    exact ⟨⟨order, inside, ranges.mp ⟨rs, hranges⟩⟩, jumps.mp hjumps⟩
  · rintro ⟨⟨order, inside, whole⟩, free⟩
    obtain ⟨rs, hranges⟩ := ranges.mpr whole
    exact ⟨_, _, b, rs, hb, ⟨order, inside⟩, jumps.mpr free, hranges, rfl, rfl⟩

end Module

/-! ## Back in its place -/

namespace FileBody

variable {v : FileBody} {f : Fragment} {first last : Nat}

/-- The body with the ranges that lie in positions `first` to `last` in front of the others. -/
def bringForward (v : FileBody) (first last : Nat) : FileBody :=
  { v with
    ranges := v.ranges.filter (fun r => r.markers.all (isInside first last)) ++
      v.ranges.filter fun r => ! r.markers.all (isInside first last) }

/-- No jump leads into positions `first` to `last` or out of them, and no range is cut. -/
structure Loose (v : FileBody) (first last : Nat) : Prop where
  order : first ≤ last
  inside : last < v.code.length
  inner : ∀ i ∈ (v.code.drop first).take (last + 1 - first), ∀ l ∈ i.targets,
    isInside first last l = true
  outer : ∀ i ∈ v.code.take first ++ v.code.drop (last + 1), ∀ l ∈ i.targets,
    isInside first last l = false
  ranges : ∀ r ∈ v.ranges, (∀ l ∈ r.markers, isInside first last l = true) ∨
    ∀ l ∈ r.markers, isInside first last l = false

/-- A label that moves down and up again is where it was. -/
theorem shiftLabel_lowerLabel (order : first ≤ last) {l : UInt32}
    (outside : isInside first last l = false) :
    shiftLabel first (last + 1 - first) (lowerLabel first last l) = l := by
  rw [Bool.eq_false_iff, ne_eq, isInside_eq_true] at outside
  by_cases behind : last < l.toNat
  · have lowered : (UInt32.ofNat (l.toNat - (last + 1 - first))).toNat =
        l.toNat - (last + 1 - first) :=
      UInt32.toNat_ofNat_of_lt ((Nat.sub_le _ _).trans_lt l.toNat_lt)
    rw [lowerLabel, if_pos behind, shiftLabel, lowered, if_neg (by omega), Nat.sub_add_cancel
      (by omega), UInt32.ofNat_toNat]
  · rw [lowerLabel, if_neg behind, shiftLabel, if_pos (by omega)]

/-- So is a label that is counted from the start of the span and put back. -/
theorem ofNat_add_sub {l : UInt32} (inside : isInside first last l = true) :
    UInt32.ofNat (first + (l.toNat - first)) = l := by
  rw [Nat.add_sub_cancel' (isInside_eq_true.mp inside).1, UInt32.ofNat_toNat]

namespace Loose

variable (h : v.Loose first last)
include h

/-- Instructions around the span are what they were. -/
theorem map_restore {is : List (Instruction UInt32)}
    (outer : ∀ i ∈ is, ∀ l ∈ i.targets, isInside first last l = false) :
    (is.map (·.mapLabels (lowerLabel first last))).map
      (·.mapLabels (shiftLabel first (last + 1 - first))) = is := by
  rw [List.map_map]
  refine (List.map_congr_left fun i hi => ?_).trans (List.map_id is)
  rw [Function.comp, Instruction.mapLabels_mapLabels]
  exact Instruction.mapLabels_eq_self fun l hl => shiftLabel_lowerLabel h.order (outer i hi l hl)

/-- Those of the span are, too. -/
theorem map_putBack :
    (((v.code.drop first).take (last + 1 - first)).map (·.mapLabels (·.toNat - first))).map
      (·.mapLabels fun l => .ofNat (first + l)) = (v.code.drop first).take (last + 1 - first) := by
  rw [List.map_map]
  refine (List.map_congr_left fun i hi => ?_).trans (List.map_id _)
  rw [Function.comp, Instruction.mapLabels_mapLabels]
  exact Instruction.mapLabels_eq_self fun l hl => ofNat_add_sub (h.inner i hi l hl)

theorem ranges_restore :
    ((v.ranges.filter fun r => ! r.markers.all (isInside first last)).map
      (·.mapLabels (lowerLabel first last))).map
      (·.mapLabels (shiftLabel first (last + 1 - first))) =
      v.ranges.filter fun r => ! r.markers.all (isInside first last) := by
  rw [List.map_map]
  refine (List.map_congr_left fun r hr => ?_).trans (List.map_id _)
  rw [Function.comp, ExceptionRange.mapLabels_mapLabels]
  obtain ⟨hr, stays⟩ := List.mem_filter.mp hr
  refine ExceptionRange.mapLabels_eq_self fun l hl => shiftLabel_lowerLabel h.order ?_
  refine (h.ranges r hr).resolve_left (fun all => ?_) l hl
  rw [List.all_eq_true.mpr all] at stays
  cases stays

omit h in
theorem ranges_putBack :
    (v.ranges.filterMap (liftedRange first last)).map (·.mapLabels fun l => .ofNat (first + l)) =
      v.ranges.filter fun r => r.markers.all (isInside first last) := by
  rw [List.map_filterMap, ← List.filterMap_eq_filter]
  refine List.filterMap_congr fun r _ => ?_
  rw [liftedRange, Option.guard]
  split
  · rename_i all
    rw [Option.map_some, ExceptionRange.mapLabels_mapLabels]
    exact congrArg some (ExceptionRange.mapLabels_eq_self fun l hl =>
      ofNat_add_sub (List.all_eq_true.mp all l hl))
  · rfl

/-- What was lifted and taken out can be put back, and its ranges come first. -/
theorem splice_removeRange
    (code : f.code = ((v.code.drop first).take (last + 1 - first)).map
      (·.mapLabels (·.toNat - first)))
    (ranges : f.ranges = v.ranges.filterMap (liftedRange first last)) :
    (v.removeRange first last).splice first f = v.bringForward first last := by
  have count : ((v.code.drop first).take (last + 1 - first)).length = last + 1 - first := by
    have := h.inside
    rw [List.length_take, List.length_drop]
    omega
  have front : ((v.code.take first).map (·.mapLabels (lowerLabel first last))).length = first := by
    have := h.order
    have := h.inside
    rw [List.length_map, List.length_take]
    omega
  have outer := List.forall_mem_append.mp h.outer
  have around : v.code.take first ++ (v.code.drop first).take (last + 1 - first) ++
      v.code.drop (last + 1) = v.code := by
    have behind : v.code.drop (last + 1) = (v.code.drop first).drop (last + 1 - first) := by
      rw [List.drop_drop, Nat.add_sub_cancel' (h.order.trans (Nat.le_succ last))]
    rw [List.append_assoc, behind, List.take_append_drop, List.take_append_drop]
  unfold splice insertBlock removeRange bringForward
  simp only [code, h.map_putBack, count, List.map_append, List.take_left' front,
    List.drop_left' front, h.map_restore outer.1, h.map_restore outer.2, around, ranges,
    ranges_putBack, h.ranges_restore]

end Loose

end FileBody

namespace LiveBody.Uncut

variable {a : Arena} {b : LiveBody} {first last : Nat}

/-- No range of the view is cut, either. -/
theorem ranges_view (h : b.Uncut first last) (readable : b.Readable a) :
    ∀ r ∈ (b.view a).ranges, (∀ l ∈ r.markers, FileBody.isInside first last l = true) ∨
      ∀ l ∈ r.markers, FileBody.isInside first last l = false := by
  refine (readable.forall_mem_ranges fun r markers => ?_).mp h.ranges
  rw [ExceptionRange.markers_mapLabels, List.forall_mem_map, List.forall_mem_map]
  refine or_congr (forall₂_congr fun l hl => ?_) (forall₂_congr fun l hl => ?_)
  · exact (readable.mem_span_iff (markers l hl)).symm
  · rw [← Bool.not_eq_true, ← readable.mem_span_iff (markers l hl)]

/-- What can be cut at both ends is seen to be loose. -/
theorem loose (h : b.Uncut first last) (readable : b.Readable a)
    (inner : ∀ id ∈ b.span first last, ∀ i, a.get? id = some i →
      ∀ l ∈ i.targets, l ∈ b.span first last)
    (outer : ∀ id ∈ b.code, id ∉ b.span first last → ∀ i, a.get? id = some i →
      ∀ l ∈ i.targets, l ∉ b.span first last) : (b.view a).Loose first last where
  order := h.order
  inside := by
    rw [length_code_view]
    exact h.inside
  inner := by
    show ∀ x ∈ ((b.code.map _).drop first).take _, _
    rw [← List.map_drop, ← List.map_take, List.forall_mem_map]
    intro id hid
    have hm := ((mem_span readable.nodup).mp hid).1
    obtain ⟨i, hi⟩ := readable.stored id hm
    rw [viewInstruction_eq hi, Instruction.targets_mapLabels, List.forall_mem_map]
    intro l hl
    exact (readable.mem_span_iff (readable.targets id hm i hi l hl)).mp (inner id hid i hi l hl)
  outer := by
    show ∀ x ∈ (b.code.map _).take first ++ (b.code.map _).drop (last + 1), _
    rw [← List.map_drop, ← List.map_take, ← List.map_append, List.forall_mem_map]
    intro id hid
    obtain ⟨hm, out⟩ := (mem_code_without readable.nodup).mp hid
    obtain ⟨i, hi⟩ := readable.stored id hm
    rw [viewInstruction_eq hi, Instruction.targets_mapLabels, List.forall_mem_map]
    intro l hl
    rw [← Bool.not_eq_true, ← readable.mem_span_iff (readable.targets id hm i hi l hl)]
    exact outer id hm out i hi l hl
  ranges := h.ranges_view readable

end LiveBody.Uncut

namespace Module

variable {m m₁ m₂ : Module} {k : MethodId} {b : LiveBody} {f : Fragment} {ids : List InsnId}
  {first last : Nat}

/-- The handles `new` took the place of those at positions `first` to `last` in the body of `k`.
The body is seen as before, with the ranges that lie in these positions first. The declared stack
depth alone may have grown. -/
structure Pasted (m m' : Module) (k : MethodId) (first last : Nat) (new : List InsnId) : Prop where
  restored : ∃ b b', m.body? k = some b ∧ m'.body? k = some b' ∧
    b'.code = b.code.take first ++ new ++ b.code.drop (last + 1) ∧ b.maxStack ≤ b'.maxStack ∧
      b'.view m'.arena =
        { (b.view m.arena).bringForward first last with maxStack := b'.maxStack }
  length : new.length = last + 1 - first
  nodup : new.Nodup
  unused : ∀ id ∈ new, m.arena.slot? id = none

/-- A module that was linked is linked without a span. -/
theorem Linked.removeRange (linked : m.Linked)
    (h : (Edit.removeRange k first last).apply m = (.ok ids, m₁)) : m₁.Linked := by
  obtain ⟨b, ranges, hb, hs, jumps, survivors, -, rfl⟩ := Edit.apply_removeRange_ok.mp h
  have tied := linked.tied hb
  obtain ⟨rfl, whole⟩ := survivors_eq_ok survivors
  have new := tied.without hs.1 (checkNoJumpsInto_eq_ok.mp jumps)
    (fun _ => List.mem_of_mem_filter) whole
  exact linked.rebuilt hb tied.frame_span new

/-- What is lifted out of a loose span. -/
theorem fragment_of_extract (hb : m.body? k = some b) (readable : b.Readable m.arena)
    (loose : (b.view m.arena).Loose first last) (h : m.extract k first last = .ok f) :
    f.code = (((b.view m.arena).code.drop first).take (last + 1 - first)).map
        (·.mapLabels (·.toNat - first)) ∧
      f.ranges = (b.view m.arena).ranges.filterMap (FileBody.liftedRange first last) := by
  obtain ⟨-, code, ranges, lifted, same⟩ := (extract_eq_ok_view hb readable).mp h
  rw [FileBody.liftCode_eq_ok loose.inner] at code
  rw [FileBody.liftRanges_eq_ok loose.ranges] at lifted
  obtain rfl := Except.ok.inj lifted
  rw [List.filterMap_map, Function.id_comp] at same
  exact ⟨(Except.ok.inj code).symm, same⟩

/-- What is lifted out of a sound body can be put into any body of the method with as many locals.
-/
theorem Sound.operands_of_extract (sound : m.Sound) (hb : m.body? k = some b)
    (loose : (b.view m.arena).Loose first last) (h : m.extract k first last = .ok f) :
    ∀ i ∈ f.code, i.Resolves m.toTables ∧ i.Fits (m.argumentCount k) b.locals.length := by
  have readable := (sound.linked.tied hb).readable
  have owned := sound.owned hb
  have all : ∀ i ∈ (b.view m.arena).code,
      i.Resolves m.toTables ∧ i.Fits (m.argumentCount k) b.locals.length := by
    refine (readable.forall_mem_code fun i _ => and_congr Instruction.resolves_mapLabels
      Instruction.fits_mapLabels).mp fun id hid i hi => ?_
    exact ⟨owned.resolves id hid i hi, owned.fits id hid i hi⟩
  rw [(fragment_of_extract hb readable loose h).1, List.forall_mem_map]
  intro i hi
  rw [Instruction.resolves_mapLabels, Instruction.fits_mapLabels]
  exact all i (List.mem_of_mem_drop (List.mem_of_mem_take hi))

/-- The body that is left without a span. -/
theorem exists_removed (linked : m.Linked) (hb : m.body? k = some b)
    (h : (Edit.removeRange k first last).apply m = (.ok ids, m₁))
    (room : m₁.arena.size ≤ Arena.capacity) :
    ∃ b₁, m₁.body? k = some b₁ ∧ b₁.code = b.code.take first ++ b.code.drop (last + 1) ∧
      b₁.locals = b.locals ∧ b.maxStack ≤ b₁.maxStack ∧
      b₁.view m₁.arena =
        { (b.view m.arena).removeRange first last with maxStack := b₁.maxStack } := by
  obtain ⟨b₁, hb₁, -, deep, locals, view⟩ := exists_body?_of_edit linked hb
    (e := .removeRange first last) (Edit.apply_discard_ok.mpr ⟨ids, h⟩) room
  obtain ⟨c, ranges, hc, -, -, -, -, rfl⟩ := Edit.apply_removeRange_ok.mp h
  obtain rfl : b = c := Option.some.inj (hb.symm.trans hc)
  obtain ⟨depth, -, rfl⟩ := eq_of_body?_rebuilt hb hb₁
  exact ⟨_, hb₁, rfl, locals, deep, view⟩

/-- Taking a span out takes no slots and declares nothing. -/
theorem Linked.unchanged_of_removeRange (linked : m.Linked)
    (h : (Edit.removeRange k first last).apply m = (.ok ids, m₁)) :
    m₁.arena.size = m.arena.size ∧ m₁.declarations = m.declarations := by
  obtain ⟨b, ranges, hb, -, -, -, -, rfl⟩ := Edit.apply_removeRange_ok.mp h
  exact ⟨by rw [arena_rebuilt, Arena.size_releaseAll],
    (Frame.rebuilt hb (linked.tied hb).frame_span).declarations⟩

theorem length_take_of_loose (loose : (b.view m.arena).Loose first last) :
    (b.code.take first).length = first := by
  have order := loose.order
  have inside := loose.inside
  rw [LiveBody.length_code_view] at inside
  rw [List.length_take]
  omega

/-- What was lifted out fits into the body that is left. -/
theorem Sound.exists_splice_of_removed (sound : m.Sound) (hb : m.body? k = some b)
    (room : m.arena.size ≤ Arena.capacity) (loose : (b.view m.arena).Loose first last)
    (lifted : m.extract k first last = .ok f)
    (removed : (Edit.removeRange k first last).apply m = (.ok ids, m₁)) :
    ∃ new m₂, (Edit.splice k first f).apply m₁ = (.ok new, m₂) := by
  obtain ⟨size, declarations⟩ := sound.linked.unchanged_of_removeRange removed
  obtain ⟨b₁, hb₁, code₁, locals, -, -⟩ :=
    exists_removed sound.linked hb removed (size.trans_le room)
  have place : first ≤ b₁.code.length := by
    rw [code₁, List.length_append, length_take_of_loose loose]
    exact Nat.le_add_right _ _
  have operands : ∀ i ∈ f.code,
      i.Resolves m₁.toTables ∧ i.Fits (m₁.argumentCount k) b₁.locals.length := by
    rw [locals, Tables.argumentCount_of_declarations declarations]
    intro i hi
    have placed := sound.operands_of_extract hb loose lifted i hi
    exact placed.imp_left (Tables.resolves_of_declarations declarations).mpr
  exact ⟨_, _, Edit.apply_splice_ok.mpr ⟨b₁, hb₁, place, operands, rfl, rfl⟩⟩

/-- What was lifted out and taken out can be put back. -/
theorem Sound.exists_paste (sound : m.Sound) (hb : m.body? k = some b)
    (lifted : m.extract k first last = .ok f)
    (removed : (Edit.removeRange k first last).apply m = (.ok ids, m₁))
    (room : m.arena.size + (last + 1 - first) ≤ Arena.capacity) :
    ∃ new m₂, (Edit.splice k first f).apply m₁ = (.ok new, m₂) ∧
      m.Pasted m₂ k first last new := by
  have readable := (sound.linked.tied hb).readable
  obtain ⟨uncut, inner⟩ := (exists_extract hb readable).mp ⟨f, lifted⟩
  obtain ⟨-, outer⟩ := (exists_removeRange hb readable).mp ⟨ids, m₁, removed⟩
  have loose := uncut.loose readable inner outer
  have front := length_take_of_loose loose
  have count := (length_of_extract lifted).2
  have linked₁ := sound.linked.removeRange removed
  have size := (sound.linked.unchanged_of_removeRange removed).1
  obtain ⟨new, m₂, put⟩ := sound.exists_splice_of_removed hb (by omega) loose lifted removed
  have room₂ : m₂.arena.size ≤ Arena.capacity := by
    obtain ⟨-, -, -, -, -, rfl⟩ := Edit.apply_splice_ok.mp put
    rw [arena_rebuilt, Arena.size_append, Fragment.instructions, List.length_map, size, count]
    exact room
  obtain ⟨b₁, hb₁, code₁, -, deep₁, view₁⟩ :=
    exists_removed sound.linked hb removed (by omega)
  obtain ⟨b₂, hb₂, code₂, deep₂, view₂⟩ := exists_spliced linked₁ hb₁ put room₂
  obtain ⟨code, ranges⟩ := fragment_of_extract hb readable loose lifted
  have inserted := Edit.inserted_of_splice linked₁ room₂ put
  refine ⟨new, m₂, put, ⟨b, b₂, hb, hb₂, ?_, UInt16.le_trans deep₁ deep₂, ?_⟩,
    inserted.length.trans count, inserted.nodup, fun id hid => ?_⟩
  · rw [code₂, code₁, List.take_left' front, List.drop_left' front]
  · rw [view₂, view₁]
    exact congrArg (fun v : FileBody => { v with maxStack := b₂.maxStack })
      (loose.splice_removeRange code ranges)
  · have := Array.getElem?_eq_none_iff.mp (inserted.unused id hid)
    exact Array.getElem?_eq_none (size.symm.trans_le this)

end Module

/-- In a sound module, positions `first` to `last` can be lifted out of a body exactly if they are
positions of it, no jump leads out of them, and no exception range is cut. They can be taken out
exactly if no jump leads into them instead. If both can be done, then what was lifted can be put
back after it was taken out, and the body is seen as before, with the ranges that came along first.
-/
theorem cut_and_paste {m : Module} {k : MethodId} {b : LiveBody} (sound : m.Sound)
    (hb : m.body? k = some b) (first last : Nat) :
    ((∃ f, m.extract k first last = .ok f) ↔ b.Uncut first last ∧
      ∀ id ∈ b.span first last, ∀ i, m.instruction? id = some i →
        ∀ l ∈ i.targets, l ∈ b.span first last) ∧
    ((∃ ids m₁, (Edit.removeRange k first last).apply m = (.ok ids, m₁)) ↔ b.Uncut first last ∧
      ∀ id ∈ b.code, id ∉ b.span first last → ∀ i, m.instruction? id = some i →
        ∀ l ∈ i.targets, l ∉ b.span first last) ∧
    ∀ f ids m₁, m.extract k first last = .ok f →
      (Edit.removeRange k first last).apply m = (.ok ids, m₁) →
        m.arena.size + (last + 1 - first) ≤ Arena.capacity →
          ∃ new m₂, (Edit.splice k first f).apply m₁ = (.ok new, m₂) ∧
            m.Pasted m₂ k first last new := by
  have readable := (sound.linked.tied hb).readable
  exact ⟨Module.exists_extract hb readable, Module.exists_removeRange hb readable,
    fun f ids m₁ lifted removed room => sound.exists_paste hb lifted removed room⟩

/-- An instance: all of the body of the sample, whose range comes along. -/
theorem cut_and_paste_sample : ∃ f ids m₁ new m₂,
    Sample.file.build.extract ⟨0⟩ 0 5 = .ok f ∧
      (Edit.removeRange ⟨0⟩ 0 5).apply Sample.file.build = (.ok ids, m₁) ∧
      (Edit.splice ⟨0⟩ 0 f).apply m₁ = (.ok new, m₂) ∧
      Sample.file.build.Pasted m₂ ⟨0⟩ 0 5 new := by
  obtain ⟨-, removal, paste⟩ := cut_and_paste Sample.sound_build Sample.body?_build_zero 0 5
  have all : Sample.live.span 0 5 = Sample.live.code := by decide
  have uncut : Sample.live.Uncut 0 5 :=
    ⟨by decide, by decide, fun r hr => .inl (all ▸ Sample.linked_live.markers r hr)⟩
  obtain ⟨ids, m₁, removed⟩ := removal.mpr ⟨uncut, fun id hid out => absurd (all ▸ hid) out⟩
  obtain ⟨new, m₂, put, pasted⟩ := paste _ ids m₁ Sample.extract_build removed (by decide)
  exact ⟨_, ids, m₁, new, m₂, Sample.extract_build, removed, put, pasted⟩

end Graft
