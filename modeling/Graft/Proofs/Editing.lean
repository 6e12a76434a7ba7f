import Graft.Proofs.Frame
import Graft.Proofs.Stages

/-!
# Edits keep modules sound

Each edit of a body, whether it succeeds or not, leaves a sound module sound and changes nothing but
this body and its slots. The edits that are put together from others inherit this from their parts.
The one condition is that the slots can be numbered: two slots with the same handle could not be
told apart.
-/

namespace Graft

namespace Contract

/-- Sound modules stay sound as long as their methods and slots can be numbered. -/
def sound : Contract := .bounded Module.Numbered fun m m' => m.Sound → m'.Sound

instance : sound.Idle := idle_bounded fun _ => id

instance : sound.Chains := by
  refine chains_bounded (fun le n => ?_) fun first second hm => second (first hm)
  exact ⟨le.methods.trans n.methods, le.slots.trans n.slots⟩

end Contract

namespace Edit

variable {α : Type} {m m' : Module} {k : MethodId} {p first last : Nat} {i : Instruction InsnId}

/-- The edit keeps modules sound. -/
def Safe (e : Edit α) : Prop := e.Meets .sound

namespace Safe

variable {e : Edit α}

theorem grows (he : e.Safe) : e.Grows := (meets_bounded.mp he).1

theorem sound (he : e.Safe) (m : Module) (hm : m.Sound) (n : (e.apply m).2.Numbered) :
    (e.apply m).2.Sound :=
  (meets_bounded.mp he).2 m n hm

theorem of_staged {target : Option MethodId} (staged : e.Staged target)
    (done : ∀ (m : Module) a m', m.Sound → m'.Numbered → e.apply m = (.ok a, m') → m'.Sound) :
    e.Safe :=
  staged.bounded (fun _ => id) (fun _ _ _ hm => hm.touch) fun m a m' n ran hm =>
    done m a m' hm n ran

end Safe

/-! ## Edits of one body -/

theorem safe_insertAt : (insertAt k p i).Safe := by
  refine .of_staged staged_insertAt fun m id m' hm n h => ?_
  obtain ⟨b, hb, hp, ⟨resolves, fits, targets⟩, -, rfl⟩ := apply_insertAt_ok.mp h
  have room : m.arena.size + [i].length ≤ Arena.capacity := by simpa using n.slots
  refine hm.rebuilt hb Arena.frame_append ?_
  refine (hm.owned hb).insertBlock [] room hp ?_ ?_ nofun nofun
  · intro j hj
    obtain rfl := List.mem_singleton.mp hj
    exact ⟨resolves, fits⟩
  · intro j hj l hl
    obtain rfl := List.mem_singleton.mp hj
    exact .inl (targets l hl)

theorem safe_append {code : List (Instruction InsnId)} : (append k code).Safe := by
  refine .of_staged staged_append fun m ids m' hm n h => ?_
  obtain ⟨b, hb, placed, -, rfl⟩ := apply_append_ok.mp h
  have room : m.arena.size + code.length ≤ Arena.capacity := by simpa using n.slots
  refine hm.rebuilt hb Arena.frame_append ?_
  refine (hm.owned hb).insertBlock [] room le_rfl ?_ ?_ nofun nofun
  · intro i hi
    exact ⟨(placed i hi).1, (placed i hi).2.1⟩
  · intro i hi l hl
    exact .inl ((placed i hi).2.2 l hl)

theorem safe_removeRange : (removeRange k first last).Safe := by
  refine .of_staged staged_removeRange fun m ids m' hm n h => ?_
  obtain ⟨b, ranges, hb, hs, jumps, survivors, -, rfl⟩ := apply_removeRange_ok.mp h
  have owned := hm.owned hb
  obtain ⟨rfl, whole⟩ := Module.survivors_eq_ok survivors
  refine hm.rebuilt hb (Arena.frame_releaseAll fun id hid => ?_) ?_
  · exact (owned.owner_iff id).mpr ((LiveBody.mem_span owned.nodup).mp hid).1
  · refine owned.without hs.1 (Module.checkNoJumpsInto_eq_ok.mp jumps) (fun r hr => ?_) whole
    exact List.mem_of_mem_filter hr

theorem safe_replaceAt : (replaceAt k p i).Safe := by
  refine .of_staged staged_replaceAt fun m id m' hm n h => ?_
  obtain ⟨b, old, hb, hold, placed, -, rfl⟩ := apply_replaceAt_ok.mp h
  have owned := hm.owned hb
  have room : m.arena.size < Arena.capacity := by
    simpa [Arena.replace, Nat.succ_le_iff] using n.slots
  have new := owned.replace room hold placed
  refine hm.rebuilt hb (Arena.frame_replace new.nodup ?_ fun id => (new.owner_iff id).mpr) new
  exact (owned.owner_iff old).mpr (List.mem_of_getElem? hold)

theorem safe_assign {id : InsnId} : (assign k id i).Safe := by
  refine .of_staged staged_assign fun m _ m' hm n h => ?_
  obtain ⟨b, hb, hid, placed, rfl⟩ := apply_assign_ok.mp h
  have owned := hm.owned hb
  refine hm.rebuilt hb (Arena.frame_modifyAll (List.nodup_singleton id) fun x hx => ?_)
    (owned.assign placed)
  rw [List.mem_singleton.mp hx]
  exact (owned.owner_iff id).mpr hid

theorem safe_start : (start k).Safe :=
  meets_start fun _ => ⟨Module.le_touch, fun _ hm => hm.touch⟩

theorem safe_assignAt : (assignAt k p i).Safe := meets_assignAt safe_start fun _ => safe_assign

theorem safe_addLocal {s : TypeSig} : (addLocal k s).Safe := by
  refine .of_staged staged_addLocal fun m slot m' hm n h => ?_
  obtain ⟨b, hb, -, -, -, rfl⟩ := apply_addLocal_ok.mp h
  exact hm.touch.withBody hb (Arena.Frame.refl k m.arena) ((hm.owned hb).addLocal s)

theorem safe_declareMaxStack {depth : UInt16} : (declareMaxStack k depth).Safe := by
  refine .of_staged staged_declareMaxStack fun m _ m' hm n h => ?_
  obtain ⟨b, hb, rfl⟩ := apply_declareMaxStack_ok.mp h
  exact hm.touch.withBody hb (Arena.Frame.refl k m.arena) ((hm.owned hb).withMaxStack depth)

theorem safe_resetBody {fresh : LiveBody} (code : fresh.code = []) (ranges : fresh.ranges = []) :
    (resetBody k fresh).Safe := by
  refine .of_staged staged_resetBody fun m _ m' hm n h => ?_
  obtain ⟨b, hb, rfl⟩ := apply_resetBody_ok.mp h
  have owned := hm.owned hb
  exact hm.touch.withBody hb (Arena.frame_releaseAll fun id => (owned.owner_iff id).mpr)
    (owned.reset code ranges)

end Edit

end Graft
