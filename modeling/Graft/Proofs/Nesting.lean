import Graft.Proofs.Cutting
import Graft.Proofs.Keeping

/-!
# Exception ranges stay innermost first

The runtime looks for a handler in the order in which a body lists its ranges, so a range must come
before all those that it is nested in. Nothing checks this, but all edits keep it. They move markers
without changing their order, and a fragment brings its ranges to the front: they may lie inside of
what is there, and nothing that is there lies inside of them.
-/

namespace Graft

/-! ## Nested ranges -/

namespace ExceptionRange

variable {L L' : Type} {place place' : L → Nat} {r s : ExceptionRange L}
  {ranges ranges' : List (ExceptionRange L)}

/-- All markers of `s` lie in the protected region of `r`, or all of them lie in its handler. -/
def NestedIn (place : L → Nat) (s r : ExceptionRange L) : Prop :=
  (∀ l ∈ s.markers, place r.tryStart ≤ place l ∧ place l ≤ place r.tryEnd) ∨
    ∀ l ∈ s.markers, place r.handlerStart ≤ place l ∧ place l ≤ place r.handlerEnd

instance : Decidable (s.NestedIn place r) := inferInstanceAs (Decidable (_ ∨ _))

/-- No range is nested in one before it. -/
def InnermostFirst (place : L → Nat) (ranges : List (ExceptionRange L)) : Prop :=
  ranges.Pairwise fun r s => ¬ s.NestedIn place r

instance : Decidable (InnermostFirst place ranges) :=
  inferInstanceAs (Decidable (List.Pairwise _ _))

/-- What is nested where the order of markers is finer is nested where it is coarser. -/
theorem NestedIn.mono (h : s.NestedIn place' r)
    (order : ∀ x ∈ r.markers, ∀ y ∈ s.markers, (place' x ≤ place' y → place x ≤ place y) ∧
      (place' y ≤ place' x → place y ≤ place x)) : s.NestedIn place r := by
  rcases h with inside | inside
  · exact .inl fun l hl => ⟨(order _ r.tryStart_mem_markers l hl).1 (inside l hl).1,
      (order _ r.tryEnd_mem_markers l hl).2 (inside l hl).2⟩
  · exact .inr fun l hl => ⟨(order _ r.handlerStart_mem_markers l hl).1 (inside l hl).1,
      (order _ r.handlerEnd_mem_markers l hl).2 (inside l hl).2⟩

/-- Markers that keep their order keep the ranges in order. -/
theorem InnermostFirst.mono (h : InnermostFirst place ranges)
    (order : ∀ r ∈ ranges, ∀ x ∈ r.markers, ∀ s ∈ ranges, ∀ y ∈ s.markers,
      place' x ≤ place' y → place x ≤ place y) : InnermostFirst place' ranges :=
  h.imp_of_mem fun {r s} hr hs outside nested => outside <| nested.mono fun x hx y hy =>
    ⟨order r hr x hx s hs y hy, order s hs y hy r hr x hx⟩

/-- Ranges may be put in front of others that each have a marker beyond them. -/
theorem InnermostFirst.append (front : InnermostFirst place ranges)
    (back : InnermostFirst place ranges')
    (beyond : ∀ r ∈ ranges, ∀ s ∈ ranges', ∃ l ∈ s.markers,
      (∀ x ∈ r.markers, place l < place x) ∨ ∀ x ∈ r.markers, place x < place l) :
    InnermostFirst place (ranges ++ ranges') := by
  refine List.pairwise_append.mpr ⟨front, back, fun r hr s hs nested => ?_⟩
  obtain ⟨l, hl, below | above⟩ := beyond r hr s hs
  · rcases nested with inside | inside
    · exact (below _ r.tryStart_mem_markers).not_ge (inside l hl).1
    · exact (below _ r.handlerStart_mem_markers).not_ge (inside l hl).1
  · rcases nested with inside | inside
    · exact (above _ r.tryEnd_mem_markers).not_ge (inside l hl).2
    · exact (above _ r.handlerEnd_mem_markers).not_ge (inside l hl).2

/-- Ranges whose labels are replaced are nested as the new labels are placed. -/
theorem nestedIn_mapLabels {f : L → L'} {place : L' → Nat} :
    (s.mapLabels f).NestedIn place (r.mapLabels f) ↔ s.NestedIn (place ∘ f) r := by
  rw [NestedIn, markers_mapLabels, List.forall_mem_map, List.forall_mem_map]
  rfl

theorem innermostFirst_map {f : L → L'} {place : L' → Nat} :
    InnermostFirst place (ranges.map (·.mapLabels f)) ↔ InnermostFirst (place ∘ f) ranges := by
  rw [InnermostFirst, List.pairwise_map]
  simp only [nestedIn_mapLabels]
  rfl

end ExceptionRange

open ExceptionRange (InnermostFirst)

/-- The ranges of the fragment are listed innermost first. -/
def Fragment.InnermostFirst (f : Fragment) : Prop := ExceptionRange.InnermostFirst id f.ranges

instance {f : Fragment} : Decidable f.InnermostFirst :=
  inferInstanceAs (Decidable (ExceptionRange.InnermostFirst _ _))

theorem Fragment.innermostFirst_straight {code : List (Instruction Empty)} :
    (straight code).InnermostFirst := .nil

namespace LiveBody

variable {k : MethodId} {a : Arena} {b : LiveBody} {old : InsnId} {p first last : Nat}

/-- The ranges of the body are listed innermost first. -/
def InnermostFirst (b : LiveBody) : Prop := ExceptionRange.InnermostFirst b.code.idxOf b.ranges

instance : Decidable b.InnermostFirst :=
  inferInstanceAs (Decidable (ExceptionRange.InnermostFirst _ _))

theorem InnermostFirst.of_ranges_eq_nil (h : b.ranges = []) : b.InnermostFirst := by
  rw [InnermostFirst, h]
  exact .nil

/-- Ranges that lie among new instructions may be put in front: what was there before does not lie
in them. -/
theorem Tied.innermostFirst_insertBlock (h : Tied k a b) (inner : b.InnermostFirst) {n : Nat}
    {ranges : List (ExceptionRange InsnId)} (room : a.size + n ≤ Arena.capacity)
    (hp : p ≤ b.code.length) (markers : ∀ r ∈ ranges, ∀ l ∈ r.markers, l ∈ a.nextIds n)
    (new : ExceptionRange.InnermostFirst (a.nextIds n).idxOf ranges) :
    InnermostFirst { b.insert p (a.nextIds n) with ranges := ranges ++ b.ranges } := by
  have fresh : ∀ id ∈ a.nextIds n, id ∉ b.code := fun _ => h.notMem_of_mem_nextIds room
  have placeOld : ∀ r ∈ b.ranges, ∀ l ∈ r.markers,
      (b.insert p (a.nextIds n)).code.idxOf l =
        if b.code.idxOf l < p then b.code.idxOf l else b.code.idxOf l + n := by
    intro r hr l hl
    have hl := h.markers r hr l hl
    have shifted := Places.idxOf_insert (p := p) hl fun hn => fresh l hn hl
    rwa [Arena.length_nextIds] at shifted
  have placeNew : ∀ r ∈ ranges, ∀ l ∈ r.markers,
      (b.insert p (a.nextIds n)).code.idxOf l = p + (a.nextIds n).idxOf l :=
    fun r hr l hl => Places.idxOf_inserted hp (markers r hr l hl) (fresh l (markers r hr l hl))
  refine InnermostFirst.append (new.mono ?_) (inner.mono ?_) fun r hr s hs => ?_
  · intro r hr x hx s hs y hy le
    rw [placeNew r hr x hx, placeNew s hs y hy] at le
    omega
  · intro r hr x hx s hs y hy le
    rw [placeOld r hr x hx, placeOld s hs y hy] at le
    split at le <;> split at le <;> omega
  · -- the protected region of an old range starts before the new instructions or behind them
    have start := ExceptionRange.tryStart_mem_markers s
    refine ⟨s.tryStart, start, ?_⟩
    by_cases front : b.code.idxOf s.tryStart < p
    · refine .inl fun x hx => ?_
      rw [placeOld s hs _ start, placeNew r hr x hx, if_pos front]
      omega
    · refine .inr fun x hx => ?_
      have inside := List.idxOf_lt_length_of_mem (markers r hr x hx)
      rw [Arena.length_nextIds] at inside
      rw [placeOld s hs _ start, placeNew r hr x hx, if_neg front]
      omega

theorem Tied.innermostFirst_insert (h : Tied k a b) (inner : b.InnermostFirst) {n : Nat}
    (room : a.size + n ≤ Arena.capacity) (hp : p ≤ b.code.length) :
    InnermostFirst (b.insert p (a.nextIds n)) :=
  h.innermostFirst_insertBlock inner room hp (List.forall_mem_nil _) .nil

/-- A fragment brings its ranges in their order. -/
theorem Tied.innermostFirst_splice (h : Tied k a b) (inner : b.InnermostFirst) {f : Fragment}
    (room : a.size + f.code.length ≤ Arena.capacity) (hp : p ≤ b.code.length)
    (hf : f.InnermostFirst) :
    InnermostFirst { b.insert p (a.nextIds f.code.length) with
      ranges := f.liveRanges a.size ++ b.ranges } := by
  refine h.innermostFirst_insertBlock inner room hp (fun r hr l => mem_nextIds_of_marker hr)
    (ExceptionRange.innermostFirst_map.mpr ?_)
  refine ExceptionRange.InnermostFirst.mono hf fun r hr x hx s hs y hy le => ?_
  rwa [Function.comp, Function.comp, Arena.idxOf_nextIds room (f.markers_lt r hr x hx),
    Arena.idxOf_nextIds room (f.markers_lt s hs y hy)] at le

/-- The ranges that survive a removal keep their order, as do their markers. -/
theorem Tied.innermostFirst_without (h : Tied k a b) (inner : b.InnermostFirst)
    (hs : first ≤ last) {ranges : List (ExceptionRange InsnId)} (sub : ranges.Sublist b.ranges)
    (whole : ∀ r ∈ ranges, ∀ l ∈ r.markers, l ∉ b.span first last) :
    InnermostFirst { b.without first last with ranges } := by
  have stays : ∀ r ∈ ranges, ∀ l ∈ r.markers, l ∈ (b.without first last).code := fun r hr l hl =>
    (mem_code_without h.nodup).mpr ⟨h.markers r (sub.subset hr) l hl, whole r hr l hl⟩
  refine ExceptionRange.InnermostFirst.mono (inner.sublist sub) fun r hr x hx s hs' y hy le => ?_
  have xout := (Places.mem_without h.nodup).mp (stays r hr x hx)
  have yout := (Places.mem_without h.nodup).mp (stays s hs' y hy)
  have le : (b.code.take first ++ b.code.drop (last + 1)).idxOf x ≤
    (b.code.take first ++ b.code.drop (last + 1)).idxOf y := le
  rw [Places.idxOf_without h.nodup hs (stays r hr x hx),
    Places.idxOf_without h.nodup hs (stays s hs' y hy)] at le
  split at le <;> split at le <;> omega

/-- A marker that follows to a new instruction stands where it stood. -/
theorem Tied.innermostFirst_replace (h : Tied k a b) (inner : b.InnermostFirst)
    (room : a.size < Arena.capacity) (hold : b.code[p]? = some old) :
    (b.replace p (follow old (.ofIndex a.size)) (.ofIndex a.size)).InnermostFirst := by
  have place : ∀ r ∈ b.ranges, ∀ l ∈ r.markers,
      (b.code.set p (.ofIndex a.size)).idxOf (follow old (.ofIndex a.size) l) = b.code.idxOf l :=
    fun r hr l hl => Places.idxOf_set h.nodup hold (h.next_notMem room) (h.markers r hr l hl)
  refine ExceptionRange.innermostFirst_map.mpr (ExceptionRange.InnermostFirst.mono inner ?_)
  intro r hr x hx s hs y hy le
  have le : (b.code.set p (.ofIndex a.size)).idxOf (follow old (.ofIndex a.size) x) ≤
    (b.code.set p (.ofIndex a.size)).idxOf (follow old (.ofIndex a.size) y) := le
  rwa [place r hr x hx, place s hs y hy] at le

end LiveBody

/-! ## Lifting -/

namespace Module

variable {m : Module} {k : MethodId} {b b' : LiveBody} {f : Fragment} {a : Arena} {first last : Nat}

/-- What is lifted out of a body lists its ranges as the body does. -/
theorem innermostFirst_of_extract (hb : m.body? k = some b) (readable : b.Readable m.arena)
    (inner : b.InnermostFirst) (h : m.extract k first last = .ok f) : f.InnermostFirst := by
  obtain ⟨uncut, -⟩ := (exists_extract hb readable).mp ⟨f, h⟩
  obtain ⟨-, -, ranges, lifted, same⟩ := (extract_eq_ok_view hb readable).mp h
  rw [FileBody.liftRanges_eq_ok (uncut.ranges_view readable)] at lifted
  obtain rfl := Except.ok.inj lifted
  rw [List.filterMap_map, Function.id_comp, LiveBody.view, List.filterMap_map] at same
  rw [Fragment.InnermostFirst, same, ExceptionRange.InnermostFirst, List.pairwise_filterMap]
  refine inner.imp_of_mem fun {r r'} hr hr' outside s hs s' hs' nested => ?_
  obtain ⟨inside, rfl⟩ := FileBody.liftedRange_eq_some.mp hs
  obtain ⟨inside', rfl⟩ := FileBody.liftedRange_eq_some.mp hs'
  rw [ExceptionRange.markers_mapLabels, List.forall_mem_map] at inside inside'
  rw [ExceptionRange.nestedIn_mapLabels, ExceptionRange.nestedIn_mapLabels] at nested
  refine outside (nested.mono fun x hx y hy => ?_)
  have hx' := FileBody.isInside_eq_true.mp (inside x hx)
  have hy' := FileBody.isInside_eq_true.mp (inside' y hy)
  simp only [Function.comp, id,
    LiveBody.toNat_position readable.nodup (readable.markers r hr x hx),
    LiveBody.toNat_position readable.nodup (readable.markers r' hr' y hy)] at hx' hy' ⊢
  omega

/-! ## In all bodies of a module -/

/-- The module is linked, and all bodies list their ranges innermost first. -/
structure WellNested (m : Module) : Prop where
  linked : m.Linked
  inner : ∀ k b, m.body? k = some b → b.InnermostFirst

namespace WellNested

variable (h : m.WellNested)
include h

theorem of_extract (lifted : m.extract k first last = .ok f) : f.InnermostFirst := by
  obtain ⟨b, -, hb, -⟩ := extract_eq_ok.mp lifted
  exact innermostFirst_of_extract hb (h.linked.tied hb).readable (h.inner k b hb) lifted

theorem touch : (m.touch k).WellNested := ⟨h.linked.touch, h.inner⟩

theorem withBody (hb : m.body? k = some b') (frame : Arena.Frame k m.arena a) (tied : b.Tied k a)
    (inner : b.InnermostFirst) : (m.withBody k b a).WellNested where
  linked := h.linked.withBody hb frame tied
  inner j c hc := by
    by_cases hj : j = k
    · subst hj
      rw [body?_withBody_self hb] at hc
      cases hc
      exact inner
    · rw [body?_withBody_of_ne hj] at hc
      exact h.inner j c hc

theorem rebuilt (hb : m.body? k = some b') (frame : Arena.Frame k m.arena a) (tied : b.Tied k a)
    (inner : b.InnermostFirst) : (m.rebuilt k b a).WellNested := by
  rw [rebuilt_eq hb]
  exact h.touch.withBody hb frame (tied.withMaxStack _) inner

/-- A method that is declared has no ranges. -/
theorem addMethod {d : Method LiveBody} (blank : d.Blank) : (m.addMethod d).WellNested where
  linked := h.linked.addMethod blank
  inner j c hc := by
    rw [body?_addMethod] at hc
    split at hc
    · exact .of_ranges_eq_nil (blank c hc).2
    · exact h.inner j c hc

/-- Locals may be copied into a body. -/
theorem localsCopied {d : Method LiveBody} : (Edit.localsCopied d k m).WellNested := by
  rw [Edit.localsCopied]
  cases d.body with
  | none => exact h
  | some b =>
    cases hb : m.body? k with
    | none => exact h
    | some new =>
      exact h.withBody hb (.refl k m.arena) ((h.linked.tied hb).of_code_eq rfl rfl)
        (h.inner k new hb)

end WellNested

end Module

/-! ## Edits -/

namespace Edit

open Graft.Module (WellNested)

variable {k source callee : MethodId} {f : Fragment} {i : Instruction InsnId}
  {p first last count : Nat}

/-- An edit of a body may touch it. -/
theorem nests_of_staged {α : Type} {target : Option MethodId} {e : Edit α}
    (staged : e.Staged target) (done : ∀ m a m', m.WellNested →
      m'.arena.size ≤ Arena.capacity → e.apply m = (.ok a, m') → m'.WellNested) :
    e.Keeps WellNested :=
  .of_staged staged (fun _ _ _ hm => hm.touch) done

theorem nests_insertAt : (insertAt k p i).Keeps WellNested := by
  refine nests_of_staged staged_insertAt fun m id m' hm room h => ?_
  obtain ⟨b, hb, hp, ⟨-, -, targets⟩, -, rfl⟩ := apply_insertAt_ok.mp h
  have room : m.arena.size + [i].length ≤ Arena.capacity := by simpa using room
  have tied := hm.linked.tied hb
  refine hm.rebuilt hb Arena.frame_append (tied.insertBlock [] room (fun j hj l hl => ?_) nofun)
    (tied.innermostFirst_insert (hm.inner k b hb) room hp)
  obtain rfl := List.mem_singleton.mp hj
  exact .inl (targets l hl)

theorem nests_append {code : List (Instruction InsnId)} : (append k code).Keeps WellNested := by
  refine nests_of_staged staged_append fun m ids m' hm room h => ?_
  obtain ⟨b, hb, placed, -, rfl⟩ := apply_append_ok.mp h
  have room : m.arena.size + code.length ≤ Arena.capacity := by simpa using room
  have tied := hm.linked.tied hb
  refine hm.rebuilt hb Arena.frame_append (tied.insertBlock [] room (fun j hj l hl => ?_) nofun)
    (tied.innermostFirst_insert (hm.inner k b hb) room le_rfl)
  exact .inl ((placed j hj).2.2 l hl)

theorem nests_splice (hf : f.InnermostFirst) : (splice k p f).Keeps WellNested := by
  refine nests_of_staged staged_splice fun m ids m' hm room h => ?_
  obtain ⟨b, hb, hp, -, -, rfl⟩ := apply_splice_ok.mp h
  have room : m.arena.size + f.code.length ≤ Arena.capacity := by
    simpa [Fragment.instructions] using room
  have tied := hm.linked.tied hb
  exact hm.rebuilt hb Arena.frame_append (tied.splice room)
    (tied.innermostFirst_splice (hm.inner k b hb) room hp hf)

theorem nests_removeRange : (removeRange k first last).Keeps WellNested := by
  refine nests_of_staged staged_removeRange fun m ids m' hm _ h => ?_
  obtain ⟨b, ranges, hb, hs, jumps, survivors, -, rfl⟩ := apply_removeRange_ok.mp h
  obtain ⟨rfl, whole⟩ := Module.survivors_eq_ok survivors
  have tied := hm.linked.tied hb
  refine hm.rebuilt hb tied.frame_span (tied.without hs.1 (Module.checkNoJumpsInto_eq_ok.mp jumps)
    (fun _ => List.mem_of_mem_filter) whole) ?_
  exact tied.innermostFirst_without (hm.inner k b hb) hs.1 List.filter_sublist whole

theorem nests_replaceAt : (replaceAt k p i).Keeps WellNested := by
  refine nests_of_staged staged_replaceAt fun m id m' hm room h => ?_
  obtain ⟨b, old, hb, hold, ⟨-, -, targets⟩, -, rfl⟩ := apply_replaceAt_ok.mp h
  have room : m.arena.size < Arena.capacity := by
    simpa [Arena.replace, Nat.succ_le_iff] using room
  have tied := hm.linked.tied hb
  have new := tied.replace (i := i) room hold targets
  refine hm.rebuilt hb (Arena.frame_replace new.nodup ?_ fun id => (new.owner_iff id).mpr) new
    (tied.innermostFirst_replace (hm.inner k b hb) room hold)
  exact (tied.owner_iff old).mpr (List.mem_of_getElem? hold)

theorem nests_assign {id : InsnId} : (assign k id i).Keeps WellNested := by
  refine nests_of_staged staged_assign fun m _ m' hm _ h => ?_
  obtain ⟨b, hb, hid, ⟨-, -, targets⟩, rfl⟩ := apply_assign_ok.mp h
  have tied := hm.linked.tied hb
  refine hm.rebuilt hb (Arena.frame_modifyAll (List.nodup_singleton id) fun x hx => ?_)
    (tied.assign targets) (hm.inner k b hb)
  rw [List.mem_singleton.mp hx]
  exact (tied.owner_iff id).mpr hid

theorem nests_start : (start k).Keeps WellNested :=
  meets_start fun _ => ⟨Module.le_touch, fun _ hm => hm.touch⟩

theorem nests_assignAt : (assignAt k p i).Keeps WellNested :=
  meets_assignAt nests_start fun _ => nests_assign

theorem nests_addLocal {s : TypeSig} : (addLocal k s).Keeps WellNested := by
  refine nests_of_staged staged_addLocal fun m slot m' hm _ h => ?_
  obtain ⟨b, hb, -, -, -, rfl⟩ := apply_addLocal_ok.mp h
  exact hm.touch.withBody hb (.refl k m.arena) ((hm.linked.tied hb).of_code_eq rfl rfl)
    (hm.inner k b hb)

theorem nests_declareMaxStack {depth : UInt16} : (declareMaxStack k depth).Keeps WellNested := by
  refine nests_of_staged staged_declareMaxStack fun m _ m' hm _ h => ?_
  obtain ⟨b, hb, rfl⟩ := apply_declareMaxStack_ok.mp h
  exact hm.touch.withBody hb (.refl k m.arena) ((hm.linked.tied hb).withMaxStack depth)
    (hm.inner k b hb)

theorem nests_resetBody {fresh : LiveBody} (code : fresh.code = []) (ranges : fresh.ranges = []) :
    (resetBody k fresh).Keeps WellNested := by
  refine nests_of_staged staged_resetBody fun m _ m' hm _ h => ?_
  obtain ⟨b, hb, rfl⟩ := apply_resetBody_ok.mp h
  have tied := hm.linked.tied hb
  exact hm.touch.withBody hb (Arena.frame_releaseAll fun id => (tied.owner_iff id).mpr)
    (tied.reset code ranges) (.of_ranges_eq_nil ranges)

/-- What is copied lists its ranges as its source does. -/
theorem nests_copyRange : (copyRange k source first last p).Keeps WellNested := by
  refine meets_copyRange nests_start fun m f lifted => ?_
  exact .of_premise staged_splice.grows fun hm => nests_splice (hm.of_extract lifted) m

theorem nests_copyBody : (copyBody source k).Keeps WellNested := by
  refine meets_copyBody fun m f rest whole => ?_
  obtain ⟨b, -, -, lifted, rfl⟩ := wholeBody_eq_ok.mp whole
  refine .of_premise (.bind staged_resetBody.grows fun _ => staged_splice.grows) fun hm => ?_
  exact (nests_resetBody rfl rfl m).bind fun _ m₁ _ => nests_splice (hm.of_extract lifted) m₁

theorem nests_pad : (pad k p count).Keeps WellNested :=
  meets_pad nests_start (nests_splice Fragment.innermostFirst_straight)

theorem nests_returnLiteral {value : Literal TypeId} : (returnLiteral k value).Keeps WellNested :=
  meets_returnLiteral (nests_resetBody rfl rfl) fun _ => nests_append

theorem nests_injectCall : (injectCall k callee).Keeps WellNested :=
  meets_injectCall (fun _ => nests_addLocal) fun _ =>
    nests_splice Fragment.innermostFirst_straight

/-- New methods have no ranges. -/
theorem declarable_wellNested : Declarable WellNested where
  addType m d hm := by
    have body := Module.body?_enterType (m := m) d
    refine ⟨⟨fun id k => ?_, fun k b hb => hm.linked.bodies k b (body k ▸ hb)⟩,
      fun k b hb => hm.inner k b (body k ▸ hb)⟩
    rw [body]
    exact hm.linked.owner_iff id k
  addField _ _ hm := ⟨⟨hm.linked.owner_iff, hm.linked.bodies⟩, hm.inner⟩
  addMethod _ _ blank hm := hm.addMethod blank
  copyLocals _ _ _ hm := hm.localsCopied

end Edit

/-! ## Sessions -/

namespace Session

open Edit
open Graft.Module (WellNested)

/-- No action puts a range behind one that it is nested in. -/
theorem nests_edit {kept : List Fragment} {a : Action}
    (spliced : ∀ k p n f, a = .splice k p n → kept[n]? = some f → f.InnermostFirst) :
    (a.edit kept).Keeps WellNested := by
  refine Action.keeps_edit declarable_wellNested fun k target => ?_
  cases a with
  | insertAt => exact nests_insertAt.discard
  | append => exact nests_append.discard
  | removeRange => exact nests_removeRange.discard
  | replaceAt => exact nests_replaceAt.discard
  | assign => exact nests_assign
  | assignAt => exact nests_assignAt
  | splice k p number =>
    rw [Action.edit]
    split
    · rename_i f hf
      exact (nests_splice (spliced k p number f rfl hf)).discard
    · exact Meets.pure ()
  | copyRange => exact nests_copyRange.discard
  | pad => exact nests_pad.discard
  | addLocal => exact nests_addLocal.discard
  | declareMaxStack => exact nests_declareMaxStack
  | returnLiteral => exact nests_returnLiteral.discard
  | injectCall => exact nests_injectCall.discard
  | copyBody => exact nests_copyBody.discard
  | _ => cases target

variable {s : Session} {a : Action}

/-- The bodies of the module and the fragments kept aside list their ranges innermost first. -/
structure Nested (s : Session) : Prop where
  current : s.current.WellNested
  kept : ∀ f ∈ s.kept, f.InnermostFirst

/-- Fragments that are lifted out are in order, those that are made have to be made so. -/
theorem Nested.step (h : s.Nested)
    (made : ∀ code ranges, a = .make code ranges → ExceptionRange.InnermostFirst id ranges)
    (room : (s.step a).current.arena.size ≤ Arena.capacity) : (s.step a).Nested where
  current := by
    have edit := nests_edit (a := a) fun _ _ _ f _ hf => h.kept f (List.mem_of_getElem? hf)
    exact edit.apply h.current room
  kept f hf := by
    rcases List.mem_append.mp hf with hf | hf
    · exact h.kept f hf
    · have hf := Option.mem_toList.mp hf
      cases a with
      | make code ranges =>
        obtain ⟨-, same, -⟩ := Fragment.ofParts_eq_ok (toOption_eq_some.mp hf)
        rw [Fragment.InnermostFirst, same]
        exact made code ranges rfl
      | lift k first last => exact h.current.of_extract (toOption_eq_some.mp hf)
      | _ => cases hf

theorem Nested.run (h : s.Nested) {actions : List Action}
    (made : ∀ code ranges, .make code ranges ∈ actions → ExceptionRange.InnermostFirst id ranges)
    (room : (s.run actions).current.arena.size ≤ Arena.capacity) : (s.run actions).Nested := by
  induction actions generalizing s with
  | nil => exact h
  | cons a actions ih =>
    have room₁ := (grows_run (s.step a) actions).slots.trans room
    have next := h.step (fun code ranges same => made code ranges (same ▸ List.mem_cons_self)) room₁
    exact ih next (fun code ranges hm => made code ranges (List.mem_cons_of_mem a hm)) room

end Session

/-- Let a module be linked, with all ranges listed innermost first. Whatever is done to it, and
whether this succeeds or not, all ranges are listed so afterwards, as long as those of a fragment
are that is put in. Those of a fragment that is lifted out are. So the order is kept throughout a
session in which no fragment is made that lacks it. -/
theorem ranges_stay_innermost_first {m : Module} (linked : m.Linked)
    (inner : ∀ k b, m.body? k = some b → b.InnermostFirst) :
    (∀ (kept : List Fragment) (a : Action),
      (∀ k p n f, a = .splice k p n → kept[n]? = some f → f.InnermostFirst) →
      ((a.edit kept).apply m).2.arena.size ≤ Arena.capacity →
      ∀ k b, ((a.edit kept).apply m).2.body? k = some b → b.InnermostFirst) ∧
    (∀ k first last f, m.extract k first last = .ok f → f.InnermostFirst) ∧
    ∀ actions : List Action,
      (∀ code ranges, .make code ranges ∈ actions → ExceptionRange.InnermostFirst id ranges) →
      (Session.run ⟨m, []⟩ actions).current.arena.size ≤ Arena.capacity →
      ∀ k b, (Session.run ⟨m, []⟩ actions).current.body? k = some b → b.InnermostFirst := by
  have nested : m.WellNested := ⟨linked, inner⟩
  refine ⟨fun kept a spliced room => ?_, fun k first last f => nested.of_extract,
    fun actions made room => ?_⟩
  · exact ((Session.nests_edit spliced).apply nested room).inner
  · have start : Session.Nested ⟨m, []⟩ := ⟨nested, List.forall_mem_nil _⟩
    exact (start.run made room).current.inner

/-- An instance: the body of the sample is lifted out and put into its own protected region, with
its range in front of the one around it. -/
theorem ranges_stay_innermost_first_sample : Sample.whole.InnermostFirst ∧
    (∃ b, (((Action.splice ⟨0⟩ 1 0).edit [Sample.whole]).apply Sample.file.build).2.body? ⟨0⟩ =
        some b ∧ b.ranges.length = 2 ∧ b.InnermostFirst) ∧
    ∃ b, (Session.run ⟨Sample.file.build, []⟩
        [.lift ⟨0⟩ 0 5, .splice ⟨0⟩ 1 0]).current.body? ⟨0⟩ = some b ∧ b.InnermostFirst := by
  have linked := Placement.linked_build Sample.checked Sample.numbered
  have inner : ∀ k b, Sample.file.build.body? k = some b → b.InnermostFirst := by
    intro k b hb
    obtain ⟨d, hd, -⟩ := Module.exists_method? hb
    obtain rfl := Sample.eq_zero_of_method? hd
    obtain rfl := Option.some.inj (Sample.body?_build_zero.symm.trans hb)
    decide
  obtain ⟨edits, lifted, session⟩ := ranges_stay_innermost_first linked inner
  have whole := lifted _ _ _ _ Sample.extract_build
  obtain ⟨m', ids, put, room⟩ := Sample.exists_splice_whole (p := 1) (by decide)
  obtain ⟨b, hb, two⟩ : ∃ b, m'.body? ⟨0⟩ = some b ∧ b.ranges.length = 2 := by
    obtain ⟨c, hc, -, -, -, rfl⟩ := Edit.apply_splice_ok.mp put
    obtain rfl := Option.some.inj (Sample.body?_build_zero.symm.trans hc)
    obtain ⟨depth, -, hb⟩ := Module.exists_body?_rebuilt hc
    exact ⟨_, hb, rfl⟩
  have edited : (((Action.splice ⟨0⟩ 1 0).edit [Sample.whole]).apply Sample.file.build).2 = m' :=
    congrArg Prod.snd (Edit.apply_discard_ok.mpr ⟨ids, put⟩)
  have ran : (Session.run ⟨Sample.file.build, []⟩
      [.lift ⟨0⟩ 0 5, .splice ⟨0⟩ 1 0]).current = m' := by
    simp only [Session.run, List.foldl, Session.step, Action.fragment?, Sample.extract_build]
    exact edited
  have spliced : ∀ k p n f, Action.splice ⟨0⟩ 1 0 = .splice k p n →
      [Sample.whole][n]? = some f → f.InnermostFirst := by
    rintro _ _ _ _ ⟨⟩ ⟨⟩
    exact whole
  have made : ∀ code ranges, Action.make code ranges ∈ [.lift ⟨0⟩ 0 5, .splice ⟨0⟩ 1 0] →
      ExceptionRange.InnermostFirst id ranges := by simp
  refine ⟨whole, ⟨b, edited ▸ hb, two, ?_⟩, b, ran ▸ hb, ?_⟩
  · exact edits [Sample.whole] _ spliced (edited ▸ room) ⟨0⟩ b (edited ▸ hb)
  · exact session _ made (ran ▸ room) ⟨0⟩ b (ran ▸ hb)

end Graft
