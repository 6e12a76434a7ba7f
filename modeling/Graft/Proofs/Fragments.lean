import Graft.Proofs.Editing

/-!
# Fragments and sound bodies

The ranges of a fragment run forward if the fragment was made from its parts, and also if it was
lifted out of a sound body. This is all that a body asks of a fragment that is put into it besides
operands that fit, so putting one in keeps a module sound.
-/

namespace Graft

/-- The exception ranges of the fragment run forward. -/
def Fragment.Ordered (f : Fragment) : Prop := ∀ r ∈ f.ranges, r.Ordered id

namespace Fragment

variable {f : Fragment} {code : List (Instruction Nat)} {ranges : List (ExceptionRange Nat)}

/-- A fragment is made from parts if no label leads out and all ranges run forward. -/
theorem ofParts_eq_ok (h : ofParts code ranges = .ok f) :
    f.code = code ∧ f.ranges = ranges ∧ f.Ordered := by
  unfold ofParts at h
  split at h
  · cases h
  · split at h
    · cases h
    · rename_i hranges
      cases h
      refine ⟨rfl, rfl, fun r hr => ?_⟩
      have good := List.findIdx?_eq_none_iff.mp hranges r hr
      simp only [isBadRange, Bool.or_eq_false_iff, decide_eq_false_iff_not, not_lt] at good
      exact ⟨good.1.2, good.2⟩

theorem ordered_of_ranges_eq_nil (h : f.ranges = []) : f.Ordered := by simp [Ordered, h]

end Fragment

/-! ## Lifting -/

namespace Module

variable {m : Module} {k : MethodId} {b : LiveBody} {f : Fragment} {first last : Nat}

theorem body_eq_ok : m.body k = .ok b ↔ m.body? k = some b := by
  rw [body]
  cases m.body? k <;> simp

/-- What is lifted out of a body is made of instructions and ranges that are lifted one by one. -/
theorem map_extract :
    (m.extract k first last).map (fun f => (f.code, f.ranges)) = (do
      let b ← m.body k
      m.checkSpan k b first last
      let inside := Positions.ofList (b.span first last)
      let code ← (b.span first last).zipIdx.mapM fun (id, p) =>
        m.liftInstruction k inside id (first + p)
      let ranges ← b.ranges.zipIdx.mapM fun (r, i) => m.liftRange? k inside r i
      return (code, ranges.filterMap id)) := by
  rw [extract]
  cases m.body k with
  | error fault => rfl
  | ok b =>
    simp only [bind, Except.bind]
    cases m.checkSpan k b first last with
    | error fault => rfl
    | ok _ =>
      simp only [LiveBody.span]
      split <;> rename_i hcode
      · simp only [hcode]
        rfl
      · split <;> rename_i hranges <;> simp only [hcode, hranges] <;> rfl
/-- The code and the ranges of a lifted fragment are those of the span, looked up in the span. -/
theorem extract_eq_ok :
    m.extract k first last = .ok f ↔
      ∃ b ranges, m.body? k = some b ∧ (first ≤ last ∧ last < b.code.length) ∧
        ((b.span first last).zipIdx.mapM fun (id, p) =>
          m.liftInstruction k (.ofList (b.span first last)) id (first + p)) = .ok f.code ∧
        (b.ranges.zipIdx.mapM fun (r, i) =>
          m.liftRange? k (.ofList (b.span first last)) r i) = .ok ranges ∧
        f.ranges = ranges.filterMap id := by
  rw [extract, bind_eq_ok]
  simp only [body_eq_ok]
  constructor
  · rintro ⟨b, hb, h⟩
    obtain ⟨⟨⟩, hs, h⟩ := bind_eq_ok.mp h
    split at h
    · cases h
    · rename_i code hcode
      split at h
      · cases h
      · rename_i ranges hranges
        cases h
        exact ⟨b, ranges, hb, checkSpan_eq_ok.mp hs, hcode, hranges, rfl⟩
  · rintro ⟨b, ranges, hb, hs, code, markers, same⟩
    refine ⟨b, hb, bind_eq_ok.mpr ⟨(), checkSpan_eq_ok.mpr hs, ?_⟩⟩
    rw [LiveBody.span] at code markers
    split
    · rename_i fault failed
      cases failed.symm.trans code
    · rename_i code' lifted
      have codes := Except.ok.inj (lifted.symm.trans code)
      split
      · rename_i fault failed
        cases failed.symm.trans markers
      · rename_i ranges' lifted'
        obtain rfl := Except.ok.inj (lifted'.symm.trans markers)
        refine congrArg Except.ok ?_
        cases f
        simp_all

/-- A marker of a lifted range stands, in the body, as far behind the start of the span as its label
says. -/
theorem idxOf_of_find? (distinct : b.code.Nodup) {l : InsnId} {x : Nat}
    (h : (Positions.ofList (b.span first last)).find? l = some x) :
    b.code.idxOf l = first + x := by
  have place := Positions.getElem?_of_find? h
  have inside := Positions.lt_length_of_find? h
  refine Places.idxOf_of_getElem? distinct ?_
  simp only [LiveBody.span, List.length_take] at inside
  rwa [LiveBody.span, List.getElem?_take_of_lt (by omega), List.getElem?_drop] at place

theorem liftRange?_eq_ok {inside : Positions} {r : ExceptionRange InsnId} {index : Nat}
    {s : ExceptionRange Nat} (h : m.liftRange? k inside r index = .ok (some s)) :
    inside.find? r.tryStart = some s.tryStart ∧ inside.find? r.tryEnd = some s.tryEnd ∧
      inside.find? r.handlerStart = some s.handlerStart ∧
      inside.find? r.handlerEnd = some s.handlerEnd := by
  unfold liftRange? at h
  split at h
  · cases h
  · generalize hmapped : r.mapLabelsM _ = mapped at h
    cases mapped with
    | error fault => cases h
    | ok s' =>
      cases h
      obtain ⟨-, hts, hte, hhs, hhe⟩ := ExceptionRange.mapLabelsM_eq_ok hmapped
      refine ⟨?_, ?_, ?_, ?_⟩
      · cases hl : inside.find? r.tryStart <;> simp_all
      · cases hl : inside.find? r.tryEnd <;> simp_all
      · cases hl : inside.find? r.handlerStart <;> simp_all
      · cases hl : inside.find? r.handlerEnd <;> simp_all

/-- What is lifted out of a sound body runs forward, since the body does. -/
theorem Sound.ordered_of_extract (hm : m.Sound) (h : m.extract k first last = .ok f) :
    f.Ordered := by
  obtain ⟨b, ranges, hb, -, -, hranges, same⟩ := extract_eq_ok.mp h
  have sound := hm.bodies k b hb
  intro s hs
  rw [same] at hs
  obtain ⟨_, hs, rfl⟩ := List.mem_filterMap.mp hs
  obtain ⟨⟨r, i⟩, hr, lifted⟩ := exists_of_mem_mapM hranges hs
  obtain ⟨hts, hte, hhs, hhe⟩ := liftRange?_eq_ok lifted
  obtain ⟨region, handler⟩ := sound.ordered r (List.fst_mem_of_mem_zipIdx hr)
  rw [idxOf_of_find? sound.nodup hts, idxOf_of_find? sound.nodup hte] at region
  rw [idxOf_of_find? sound.nodup hhs, idxOf_of_find? sound.nodup hhe] at handler
  exact ⟨Nat.le_of_add_le_add_left region, Nat.le_of_add_le_add_left handler⟩

end Module

/-! ## Putting fragments into bodies -/

/-- A sound body stays sound if a fragment is put into it whose operands fit. -/
theorem LiveBody.Owned.splice {μ β : Type} {t : Tables μ β} {k : MethodId} {a : Arena}
    {b : LiveBody}
    {p : Nat} {f : Fragment} (h : b.Owned t k a) (hf : f.Ordered) (hp : p ≤ b.code.length)
    (room : a.size + f.code.length ≤ Arena.capacity)
    (operands : ∀ i ∈ f.code, i.Resolves t ∧ i.Fits (t.argumentCount k) b.locals.length) :
    LiveBody.Owned t k (a.append k (f.instructions a.size))
      { b.insert p (a.nextIds f.code.length) with ranges := f.liveRanges a.size ++ b.ranges } := by
  have count : (f.instructions a.size).length = f.code.length := List.length_map _
  rw [← count] at room ⊢
  refine h.insertBlock _ room hp ?_ ?_ ?_ ?_
  · intro i hi
    obtain ⟨j, hj, rfl⟩ := List.mem_map.mp hi
    obtain ⟨resolves, fits⟩ := operands j hj
    exact ⟨Instruction.resolves_mapLabels.mpr resolves, Instruction.fits_mapLabels.mpr fits⟩
  · rw [count]
    exact fun i hi l hl => .inr (mem_nextIds_of_target hi hl)
  · rw [count]
    exact fun r hr l hl => mem_nextIds_of_marker hr hl
  · intro r hr
    obtain ⟨s, hs, rfl⟩ := List.mem_map.mp hr
    rw [count] at room ⊢
    refine (hf s hs).mapLabels fun x hx y hy le => ?_
    rw [Arena.idxOf_nextIds room (f.markers_lt s hs x hx),
      Arena.idxOf_nextIds room (f.markers_lt s hs y hy)]
    exact le

namespace Edit

variable {k source callee : MethodId} {f : Fragment} {p first last count : Nat}

theorem safe_splice (hf : f.Ordered) : (splice k p f).Safe := by
  refine .of_staged staged_splice fun m ids m' hm n h => ?_
  obtain ⟨b, hb, hp, operands, -, rfl⟩ := apply_splice_ok.mp h
  have count : (f.instructions m.arena.size).length = f.code.length := List.length_map _
  have room : m.arena.size + f.code.length ≤ Arena.capacity := by simpa [count] using n.slots
  exact hm.rebuilt hb Arena.frame_append ((hm.owned hb).splice hf hp room operands)

/-- What is copied comes out of a sound module. -/
theorem safe_copyRange : (copyRange k source first last p).Safe := by
  refine meets_copyRange safe_start fun m f lifted => ?_
  refine .of_premise staged_splice.grows fun hm => ?_
  exact safe_splice (hm.ordered_of_extract lifted) m

theorem safe_spliceStraight {code : List (Instruction Empty)} :
    (splice k p (.straight code)).Safe :=
  safe_splice (Fragment.ordered_of_ranges_eq_nil rfl)

theorem safe_pad : (pad k p count).Safe := meets_pad safe_start safe_spliceStraight

/-! ## Whole methods -/

theorem safe_returnLiteral {value : Literal TypeId} : (returnLiteral k value).Safe :=
  meets_returnLiteral (safe_resetBody rfl rfl) fun _ => safe_append

/-- The body that is copied leaves its instructions behind, and lends its ranges to the fragment. -/
theorem wholeBody_eq_ok {m : Module} {rest : LiveBody} :
    m.wholeBody k = .ok (f, rest) ↔
      ∃ b, m.body? k = some b ∧ b.code ≠ [] ∧ m.extract k 0 (b.code.length - 1) = .ok f ∧
        rest = { b with code := [], ranges := [] } := by
  rw [Module.wholeBody, bind_eq_ok]
  simp only [Module.body_eq_ok]
  refine exists_congr fun b => and_congr_right fun _ => ?_
  by_cases empty : b.code = []
  · rw [if_pos (by simp [empty])]
    exact iff_of_false nofun fun h => h.1 empty
  · rw [if_neg (by simp [empty])]
    simp only [bind_eq_ok, ne_eq, empty, not_false_eq_true, true_and]
    constructor
    · rintro ⟨f, lifted, ⟨⟩⟩
      exact ⟨lifted, rfl⟩
    · rintro ⟨lifted, rfl⟩
      exact ⟨f, lifted, rfl⟩

theorem safe_copyBody : (copyBody source k).Safe := by
  refine meets_copyBody fun m f rest whole => ?_
  obtain ⟨b, -, -, lifted, rfl⟩ := wholeBody_eq_ok.mp whole
  have built : (do resetBody k { b with code := [], ranges := [] }; splice k 0 f).Built :=
    .bind (.stage staged_resetBody) fun _ => .stage staged_splice
  refine .of_premise built.grows fun hm => ?_
  have ordered := hm.ordered_of_extract lifted
  exact Meets.bind (safe_resetBody rfl rfl) (fun _ => safe_splice ordered) m

theorem safe_injectCall : (injectCall k callee).Safe :=
  meets_injectCall (fun _ => safe_addLocal) fun _ => safe_spliceStraight

end Edit

end Graft
