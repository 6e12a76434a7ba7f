import Graft.Proofs.Fragments

/-!
# Edits stay in their body

An edit of one body changes nothing else, and this takes far less than soundness: it is enough that
every body holds each of its handles once and owns them. What other bodies refer to, whether
operands are in range and whether the edited body makes sense does not matter.
-/

namespace Graft

namespace LiveBody

variable {k : MethodId} {a : Arena} {b : LiveBody} {id old : InsnId} {p first last : Nat}

/-- The body holds each handle once, and the method owns them all. -/
structure Claimed (k : MethodId) (a : Arena) (b : LiveBody) : Prop where
  nodup : b.code.Nodup
  owner? : ∀ id ∈ b.code, a.owner? id = some k

theorem Claimed.index_lt_size (h : Claimed k a b) (hid : id ∈ b.code) : id.index < a.size :=
  Arena.index_lt_size_of_owner? (h.owner? id hid)

theorem Claimed.of_code_eq_nil (h : b.code = []) : Claimed k a b :=
  ⟨by simp [h], by simp [h]⟩

theorem Claimed.insert (h : Claimed k a b) {code : List (Instruction InsnId)}
    (room : a.size + code.length ≤ Arena.capacity) :
    Claimed k (a.append k code) (b.insert p (a.nextIds code.length)) where
  nodup := by
    refine Places.nodup_insert h.nodup (Arena.nodup_nextIds room) fun id hid hm => ?_
    have := h.index_lt_size hm
    have := ((Arena.mem_nextIds room).mp hid).1
    omega
  owner? id hid := by
    rw [Arena.owner?_append_iff]
    rcases mem_code_insert.mp hid with hid | hid
    · exact .inl (h.owner? id hid)
    · exact .inr ((Arena.mem_nextIds room).mp hid)

theorem Claimed.without (h : Claimed k a b) (hs : first ≤ last) :
    Claimed k (a.releaseAll (b.span first last)) (b.without first last) where
  nodup := Places.nodup_without h.nodup (by omega)
  owner? id hid := by
    obtain ⟨hm, hout⟩ := (mem_code_without h.nodup).mp hid
    rw [Arena.owner?_releaseAll, if_neg hout, h.owner? id hm]

theorem Claimed.replace (h : Claimed k a b) {i : Instruction InsnId}
    (room : a.size < Arena.capacity) (hold : b.code[p]? = some old) :
    Claimed k (a.replace k old i (b.code.set p (.ofIndex a.size)))
      (b.replace p (follow old (.ofIndex a.size)) (.ofIndex a.size)) where
  nodup := by
    refine Places.nodup_set h.nodup fun hm => ?_
    have := h.index_lt_size hm
    rw [InsnId.index_ofIndex room] at this
    exact lt_irrefl _ this
  owner? id hid := by
    have index := InsnId.index_ofIndex room
    rw [Arena.replace, Arena.owner?_modifyAll, Arena.owner?_releaseAll]
    rcases (Places.mem_set hold h.nodup).mp hid with rfl | ⟨hm, hne⟩
    · rw [if_neg, Arena.owner?_append_iff]
      · exact .inr ⟨index.ge, by rw [index]; exact Nat.lt_succ_self _⟩
      · intro same
        have := h.index_lt_size (List.mem_of_getElem? (List.mem_singleton.mp same ▸ hold))
        rw [index] at this
        exact lt_irrefl _ this
    · rw [if_neg (by simpa using hne), Arena.owner?_append_iff]
      exact .inl (h.owner? id hm)

end LiveBody

namespace Module

variable {m : Module} {k : MethodId} {b b' : LiveBody} {a : Arena}

/-- Every body holds each of its handles once and owns them. -/
def Claimed (m : Module) : Prop := ∀ k b, m.body? k = some b → b.Claimed k m.arena

theorem Linked.claimed (h : m.Linked) : m.Claimed := fun _ _ hb =>
  ⟨(h.bodies _ _ hb).nodup, fun _ hid => h.owner?_eq hb hid⟩

theorem Claimed.touch (h : m.Claimed) : (m.touch k).Claimed := h

theorem Claimed.withBody (h : m.Claimed) (hb : m.body? k = some b')
    (frame : Arena.Frame k m.arena a) (new : b.Claimed k a) : (m.withBody k b a).Claimed := by
  intro j c hc
  by_cases hj : j = k
  · subst hj
    rw [body?_withBody_self hb] at hc
    cases hc
    exact new
  · rw [body?_withBody_of_ne hj] at hc
    have old := h j c hc
    exact ⟨old.nodup, fun id hid => (frame.owner?_iff hj).mpr (old.owner? id hid)⟩

theorem Claimed.rebuilt (h : m.Claimed) (hb : m.body? k = some b')
    (frame : Arena.Frame k m.arena a) (new : b.Claimed k a) : (m.rebuilt k b a).Claimed := by
  rw [rebuilt_eq hb]
  exact h.touch.withBody hb frame ⟨new.nodup, new.owner?⟩

end Module

namespace Contract

/-- Nothing but the body of `k` changes, and handles stay where they are owned, as long as there are
handles for all slots. -/
def within (k : MethodId) : Contract :=
  .bounded (fun d => d.arena.size ≤ Arena.capacity) fun m m' =>
    m.Claimed → m'.Claimed ∧ m.Frame k m'

instance (k : MethodId) : (within k).Idle := idle_bounded fun m hm => ⟨hm, .refl k m⟩

instance (k : MethodId) : (within k).Chains := by
  refine chains_bounded (fun le room => le.slots.trans room) fun first second hm => ?_
  obtain ⟨hm₁, frame⟩ := first hm
  obtain ⟨hm₂, frame'⟩ := second hm₁
  exact ⟨hm₂, frame.trans frame'⟩

end Contract

namespace Edit

variable {α : Type} {m : Module} {k source callee : MethodId} {p first last count : Nat}
  {i : Instruction InsnId}

/-- The edit changes nothing but the body of `k`, and keeps handles where they are owned. -/
def Contained (k : MethodId) (e : Edit α) : Prop := e.Meets (.within k)

namespace Contained

variable {e : Edit α}

theorem grows (he : e.Contained k) : e.Grows := (meets_bounded.mp he).1

theorem keeps (he : e.Contained k) (m : Module) (hm : m.Claimed)
    (room : (e.apply m).2.arena.size ≤ Arena.capacity) :
    (e.apply m).2.Claimed ∧ m.Frame k (e.apply m).2 :=
  (meets_bounded.mp he).2 m room hm

theorem keeps_of_eq {m m' : Module} {r : Except Fault α} (he : e.Contained k) (hm : m.Claimed)
    (h : e.apply m = (r, m')) (room : m'.arena.size ≤ Arena.capacity) :
    m'.Claimed ∧ m.Frame k m' := by
  have kept := he.keeps m hm
  rw [h] at kept
  exact kept room

theorem of_staged (staged : e.Staged (some k))
    (done : ∀ (m : Module) a m', m.Claimed → m'.arena.size ≤ Arena.capacity →
      e.apply m = (.ok a, m') → m'.Claimed ∧ m.Frame k m') : e.Contained k := by
  refine staged.bounded (fun m hm => ⟨hm, .refl k m⟩) ?_ fun m a m' room ran hm =>
    done m a m' hm room ran
  rintro _ ⟨⟩ m hm
  exact ⟨hm.touch, (Module.Frame.refl k m).touch⟩

end Contained

/-! ## Edits of one body -/

/-- What all edits have in common that end by raising the declared stack depth. -/
theorem contained_rebuilt {b c : LiveBody} {a : Arena} (hm : m.Claimed) (hb : m.body? k = some c)
    (frame : Arena.Frame k m.arena a) (new : b.Claimed k a) :
    (m.rebuilt k b a).Claimed ∧ m.Frame k (m.rebuilt k b a) :=
  ⟨hm.rebuilt hb frame new, .rebuilt hb frame⟩

/-- And those that do not. -/
theorem contained_withBody {b c : LiveBody} {a : Arena} (hm : m.Claimed) (hb : m.body? k = some c)
    (frame : Arena.Frame k m.arena a) (new : b.Claimed k a) :
    ((m.touch k).withBody k b a).Claimed ∧ m.Frame k ((m.touch k).withBody k b a) :=
  ⟨hm.touch.withBody hb frame new, .of_touch (.withBody hb frame)⟩

theorem contained_insertAt : (insertAt k p i).Contained k := by
  refine .of_staged staged_insertAt fun m id m' hm room h => ?_
  obtain ⟨b, hb, -, -, -, rfl⟩ := apply_insertAt_ok.mp h
  have room : m.arena.size + [i].length ≤ Arena.capacity := by simpa using room
  exact contained_rebuilt hm hb Arena.frame_append ((hm k b hb).insert room)

theorem contained_append {code : List (Instruction InsnId)} : (append k code).Contained k := by
  refine .of_staged staged_append fun m ids m' hm room h => ?_
  obtain ⟨b, hb, -, -, rfl⟩ := apply_append_ok.mp h
  have room : m.arena.size + code.length ≤ Arena.capacity := by simpa using room
  exact contained_rebuilt hm hb Arena.frame_append ((hm k b hb).insert room)

theorem contained_removeRange : (removeRange k first last).Contained k := by
  refine .of_staged staged_removeRange fun m ids m' hm room h => ?_
  obtain ⟨b, ranges, hb, hs, -, -, -, rfl⟩ := apply_removeRange_ok.mp h
  have old := hm k b hb
  have new := old.without hs.1
  refine contained_rebuilt hm hb (Arena.frame_releaseAll fun id hid => ?_) ⟨new.nodup, new.owner?⟩
  exact old.owner? id ((LiveBody.mem_span old.nodup).mp hid).1

theorem contained_replaceAt : (replaceAt k p i).Contained k := by
  refine .of_staged staged_replaceAt fun m id m' hm room h => ?_
  obtain ⟨b, old, hb, hold, -, -, rfl⟩ := apply_replaceAt_ok.mp h
  have room : m.arena.size < Arena.capacity := by
    simpa [Arena.replace, Nat.succ_le_iff] using room
  have new := (hm k b hb).replace (i := i) room hold
  refine contained_rebuilt hm hb (Arena.frame_replace new.nodup ?_ new.owner?) new
  exact (hm k b hb).owner? old (List.mem_of_getElem? hold)

theorem contained_assign {id : InsnId} : (assign k id i).Contained k := by
  refine .of_staged staged_assign fun m _ m' hm room h => ?_
  obtain ⟨b, hb, hid, -, rfl⟩ := apply_assign_ok.mp h
  have old := hm k b hb
  refine contained_rebuilt hm hb (Arena.frame_modifyAll (List.nodup_singleton id) fun x hx => ?_)
    ⟨old.nodup, fun x hx => ?_⟩
  · rw [List.mem_singleton.mp hx]
    exact old.owner? id hid
  · rw [Arena.owner?_modifyAll]
    exact old.owner? x hx

theorem contained_start : (start k).Contained k :=
  meets_start fun m => ⟨Module.le_touch, fun _ hm => ⟨hm.touch, (Module.Frame.refl k m).touch⟩⟩

theorem contained_assignAt : (assignAt k p i).Contained k :=
  meets_assignAt contained_start fun _ => contained_assign

theorem contained_splice {f : Fragment} : (splice k p f).Contained k := by
  refine .of_staged staged_splice fun m ids m' hm room h => ?_
  obtain ⟨b, hb, -, -, -, rfl⟩ := apply_splice_ok.mp h
  have count : (f.instructions m.arena.size).length = f.code.length := List.length_map _
  have room : m.arena.size + (f.instructions m.arena.size).length ≤ Arena.capacity := by
    simpa using room
  have new := (hm k b hb).insert (p := p) room
  rw [count] at new
  exact contained_rebuilt hm hb Arena.frame_append ⟨new.nodup, new.owner?⟩

theorem contained_addLocal {s : TypeSig} : (addLocal k s).Contained k := by
  refine .of_staged staged_addLocal fun m slot m' hm room h => ?_
  obtain ⟨b, hb, -, -, -, rfl⟩ := apply_addLocal_ok.mp h
  exact contained_withBody hm hb (.refl k m.arena) ⟨(hm k b hb).nodup, (hm k b hb).owner?⟩

theorem contained_declareMaxStack {depth : UInt16} : (declareMaxStack k depth).Contained k := by
  refine .of_staged staged_declareMaxStack fun m _ m' hm room h => ?_
  obtain ⟨b, hb, rfl⟩ := apply_declareMaxStack_ok.mp h
  exact contained_withBody hm hb (.refl k m.arena) ⟨(hm k b hb).nodup, (hm k b hb).owner?⟩

theorem contained_resetBody {fresh : LiveBody} (code : fresh.code = []) :
    (resetBody k fresh).Contained k := by
  refine .of_staged staged_resetBody fun m _ m' hm room h => ?_
  obtain ⟨b, hb, rfl⟩ := apply_resetBody_ok.mp h
  exact contained_withBody hm hb (Arena.frame_releaseAll (hm k b hb).owner?)
    (.of_code_eq_nil code)

theorem contained_copyRange : (copyRange k source first last p).Contained k :=
  meets_copyRange contained_start fun m _ _ => contained_splice m

theorem contained_pad : (pad k p count).Contained k := meets_pad contained_start contained_splice

/-! ## Whole methods -/

theorem contained_returnLiteral {value : Literal TypeId} : (returnLiteral k value).Contained k :=
  meets_returnLiteral (contained_resetBody rfl) fun _ => contained_append

theorem contained_copyBody : (copyBody source k).Contained k := by
  refine meets_copyBody fun m f rest whole => ?_
  obtain ⟨b, -, -, -, rfl⟩ := wholeBody_eq_ok.mp whole
  exact Meets.bind (contained_resetBody rfl) (fun _ => contained_splice) m

theorem contained_injectCall : (injectCall k callee).Contained k :=
  meets_injectCall (fun _ => contained_addLocal) fun _ => contained_splice

end Edit

end Graft
