import Graft.Proofs.Twins

/-!
# Methods that are masked

To mask a method is to put an empty body in the place of its own, to take its slots away from it and
to make it public. An edit that goes the same way whether or not a method is masked looks at nothing
of it but what calls go by, and leaves it alone. All operations do so with methods that they neither
aim at nor copy from.
-/

namespace Graft

theorem Except.map_injective {ε α β : Type} {f : α → β} (inj : Function.Injective f) :
    Function.Injective (Except.map (ε := ε) f) := by
  rintro (fault | a) (fault' | a') same
  · exact congrArg Except.error (Except.error.inj same)
  · cases same
  · cases same
  · exact congrArg Except.ok (inj (Except.ok.inj same))

/-! ## Slots without an owner -/

namespace Arena

variable {a : Arena} {j k : MethodId} {id : InsnId}

/-- Take all its slots away from a method. -/
def disown (k : MethodId) (a : Arena) : Arena :=
  ⟨a.slots.map fun s => { s with owner := s.owner.filter (· ≠ k) }⟩

@[simp] theorem size_disown : (a.disown k).size = a.size := Array.size_map

theorem slot?_disown : (a.disown k).slot? id =
    (a.slot? id).map fun s => { s with owner := s.owner.filter (· ≠ k) } :=
  Array.getElem?_map

@[simp] theorem get?_disown : (a.disown k).get? id = a.get? id := by
  rw [get?, slot?_disown, Option.map_map, get?]
  rfl

/-- The other methods own what they owned. -/
theorem owner?_disown_iff :
    (a.disown k).owner? id = some j ↔ a.owner? id = some j ∧ j ≠ k := by
  have owner : (a.disown k).owner? id = (a.owner? id).filter (· ≠ k) := by
    rw [owner?, owner?, slot?_disown]
    cases a.slot? id <;> rfl
  rw [owner, Option.filter_eq_some_iff, decide_eq_true_eq]

theorem disown_append {code : List (Instruction InsnId)} (h : j ≠ k) :
    (a.append j code).disown k = (a.disown k).append j code := by
  refine congrArg Arena.mk (Array.toList_inj.mp ?_)
  simp [append, disown, h]

theorem disown_release : (a.release id).disown k = (a.disown k).release id :=
  congrArg Arena.mk <| map_modify (f := fun s : Slot => { s with owner := none })
    (h := fun s : Slot => { s with owner := none }) fun _ => rfl

theorem disown_modify {f : Instruction InsnId → Instruction InsnId} :
    (a.modify id f).disown k = (a.disown k).modify id f :=
  congrArg Arena.mk <| map_modify (f := fun s : Slot => { s with instruction := f s.instruction })
    (h := fun s : Slot => { s with instruction := f s.instruction }) fun _ => rfl

theorem disown_releaseAll {ids : List InsnId} :
    (a.releaseAll ids).disown k = (a.disown k).releaseAll ids := by
  induction ids generalizing a with
  | nil => rfl
  | cons id ids ih =>
    have step : ((a.release id).releaseAll ids).disown k =
        ((a.release id).disown k).releaseAll ids := ih
    rw [disown_release] at step
    exact step

theorem disown_modifyAll {ids : List InsnId} {f : Instruction InsnId → Instruction InsnId} :
    (a.modifyAll ids f).disown k = (a.disown k).modifyAll ids f := by
  induction ids generalizing a with
  | nil => rfl
  | cons id ids ih =>
    have step : ((a.modify id f).modifyAll ids f).disown k =
        ((a.modify id f).disown k).modifyAll ids f := ih
    rw [disown_modify] at step
    exact step

end Arena

/-! ## Masks -/

/-- The method with an empty body in the place of its own, open to everyone. -/
def Method.masked {V C L : Type} (d : Method (Body V C L)) : Method (Body V C L) :=
  { d with flags := d.flags.makePublic, body := d.body.map fun _ => Body.empty }

theorem Method.outline_masked {V C L : Type} (d : Method (Body V C L)) :
    d.masked.outline = d.outline :=
  congrArg (fun flags => { d.head with flags }) d.flags.makePublic_makePublic

namespace Module

variable {m m' : Module} {j k : MethodId} {b : LiveBody} {id : InsnId} {p first last count : Nat}
  {i : Instruction InsnId}

/-- The module with a method masked. -/
def mask (k : MethodId) (m : Module) : Module :=
  { m.modifyMethod k Method.masked with arena := m.arena.disown k }

theorem method?_mask :
    (m.mask k).method? j = if j = k then (m.method? k).map Method.masked else m.method? j :=
  method?_modifyMethod _

theorem body?_mask_of_ne (h : j ≠ k) : (m.mask k).body? j = m.body? j := by
  rw [body?, method?_mask, if_neg h, body?]

theorem body?_mask_self : (m.mask k).body? k = (m.body? k).map fun _ => Body.empty := by
  rw [body?, method?_mask, if_pos rfl, body?]
  cases m.method? k <;> rfl

@[simp] theorem instruction?_mask : (m.mask k).instruction? id = m.instruction? id :=
  Arena.get?_disown

/-- Nothing that calls go by is masked. -/
theorem outline_mask : (m.mask k).outline = m.outline := by
  have methods : (m.methods.modify k.index Method.masked).map Method.outline =
      m.methods.map Method.outline := map_modify_of_eq Method.outline_masked
  exact congrArg (fun methods => { m.declarations with methods }) methods

@[simp] theorem methodName_mask : (m.mask k).methodName j = m.methodName j :=
  Tables.methodName_of_outline outline_mask

@[simp] theorem stackEffect_mask : (m.mask k).stackEffect j i = m.stackEffect j i :=
  Tables.stackEffect_of_outline outline_mask

@[simp] theorem checkOperands_mask {L : Type} {i : Instruction L} :
    (m.mask k).checkOperands j count i = m.checkOperands j count i := by
  rw [← Tables.checkOperands_outline, outline_mask, Tables.checkOperands_outline]

/-! ## What edits ask -/

theorem body_mask (h : j ≠ k) : (m.mask k).body j = m.body j := by
  rw [body, body, body?_mask_of_ne h, methodName_mask]

theorem checkPosition_mask : (m.mask k).checkPosition j b p = m.checkPosition j b p := by
  simp only [checkPosition, methodName_mask]

theorem handleAt_mask : (m.mask k).handleAt j b p = m.handleAt j b p := by
  simp only [handleAt, methodName_mask]

theorem checkPlacement_mask : (m.mask k).checkPlacement j b p i = m.checkPlacement j b p i := by
  simp only [checkPlacement, checkTargets, checkOperands_mask, methodName_mask]

theorem checkRemovable_mask :
    (m.mask k).checkRemovable j b first last = m.checkRemovable j b first last := by
  simp only [checkRemovable, methodName_mask]

theorem checkNoJumpsInto_mask {removed : List InsnId} :
    (m.mask k).checkNoJumpsInto j b first last removed =
      m.checkNoJumpsInto j b first last removed := by
  simp only [checkNoJumpsInto, instruction?_mask, methodName_mask]

theorem survivors_mask {removed : List InsnId} :
    (m.mask k).survivors j b removed = m.survivors j b removed := by
  simp only [survivors, survives, methodName_mask]

theorem checkLocalsLeft_mask : (m.mask k).checkLocalsLeft j b = m.checkLocalsLeft j b := by
  simp only [checkLocalsLeft, methodName_mask]

theorem simulate_mask (h : j ≠ k) : (m.mask k).simulate j = m.simulate j := by
  have step : (m.mask k).stackStep j = m.stackStep j := by
    funext code positions p depth
    simp only [stackStep, instruction?_mask, methodName_mask, stackEffect_mask]
  simp only [simulate, rangeEntries, body_mask h, step, methodName_mask]

theorem checkPadding_mask (h : j ≠ k) :
    (m.mask k).checkPadding j b p count = m.checkPadding j b p count := by
  simp only [checkPadding, simulate_mask h, methodName_mask]

/-- What is lifted out of a body depends on the body and on the instructions of its handles. -/
theorem extract_mask (h : j ≠ k) :
    (m.mask k).extract j first last = m.extract j first last := by
  have lift : (m.mask k).liftInstruction j = m.liftInstruction j := by
    funext inside id p
    simp only [liftInstruction, instruction?_mask, methodName_mask]
  have liftRange : (m.mask k).liftRange? j = m.liftRange? j := by
    funext inside r n
    simp only [liftRange?, methodName_mask]
  have span : (m.mask k).checkSpan j = m.checkSpan j := by
    funext b first last
    simp only [checkSpan, methodName_mask]
  have parts : ((m.mask k).extract j first last).map (fun f => (f.code, f.ranges)) =
      (m.extract j first last).map fun f => (f.code, f.ranges) := by
    rw [map_extract, map_extract, body_mask h, span, lift, liftRange]
  -- a fragment is nothing but its code and its ranges
  have inj : Function.Injective fun f : Fragment => (f.code, f.ranges) := by
    rintro ⟨code, ranges, _, _⟩ ⟨code', ranges', _, _⟩ ⟨⟩
    rfl
  exact Except.map_injective inj parts

/-! ## What edits do -/

theorem modifyMethod_mask (h : j ≠ k) {f : Method LiveBody → Method LiveBody} :
    (m.mask k).modifyMethod j f = (m.modifyMethod j f).mask k := by
  have apart : k.index ≠ j.index := fun same => h (MethodId.index_inj.mp same).symm
  have methods : (m.methods.modify k.index Method.masked).modify j.index f =
      (m.methods.modify j.index f).modify k.index Method.masked := by
    refine Array.ext_getElem? fun i => ?_
    simp only [Array.getElem?_modify]
    by_cases hj : j.index = i
    · have hk : k.index ≠ i := fun same => apart (same.trans hj.symm)
      rw [if_pos hj, if_neg hk, if_neg hk, if_pos hj]
    · rw [if_neg hj, if_neg hj]
  exact congrArg (fun methods => { m.mask k with methods }) methods

theorem raiseMaxStack_mask (h : j ≠ k) :
    (m.mask k).raiseMaxStack j = (m.raiseMaxStack j).mask k := by
  rw [raiseMaxStack, raiseMaxStack, body?_mask_of_ne h, simulate_mask h]
  cases m.body? j <;> cases m.simulate j <;> simp only [setBody, modifyMethod_mask h]

/-! ## Files of masked modules -/

/-- To mask a method is to change this method of the file. -/
theorem view_mask : (m.mask k).view = m.view.modifyMethod k Method.masked := by
  have sight : Method.view (m.arena.disown k) = Method.view m.arena :=
    funext fun d => Method.view_congr fun b _ => LiveBody.view_congr fun id _ => Arena.get?_disown
  have step : ∀ d : Method LiveBody, d.masked.view m.arena = (d.view m.arena).masked := by
    rintro ⟨owner, name, flags, signature, body⟩
    cases body <;> rfl
  have methods : (m.methods.modify k.index Method.masked).map (Method.view (m.arena.disown k)) =
      (m.methods.map (Method.view m.arena)).modify k.index Method.masked := by
    rw [sight]
    exact map_modify step
  exact congrArg (fun methods => { m.view with methods }) methods

theorem Storable.mask (h : m.Storable) : (m.mask k).Storable where
  linked := by
    have masked : ∀ b, (m.mask k).body? k = some b → b = Body.empty := by
      intro b hb
      rw [body?_mask_self] at hb
      obtain ⟨-, -, rfl⟩ := Option.map_eq_some_iff.mp hb
      rfl
    refine ⟨fun id j => Arena.owner?_disown_iff.trans ?_, fun j b hb => ?_⟩
    · by_cases hj : j = k
      · subst hj
        refine iff_of_false (fun owned => owned.2 rfl) ?_
        rintro ⟨b, hb, hid⟩
        rw [masked b hb] at hid
        cases hid
      · rw [and_iff_left hj, body?_mask_of_ne hj]
        exact h.linked.owner_iff id j
    · by_cases hj : j = k
      · subst hj
        rw [masked b hb]
        exact .of_empty rfl rfl
      · rw [body?_mask_of_ne hj] at hb
        exact (h.linked.bodies j b hb).congr fun id _ => Arena.get?_disown
  coherent := by
    have owners : (m.methods.modify k.index Method.masked).map Method.owner =
        m.methods.map Method.owner := map_modify_of_eq fun _ => rfl
    exact h.coherent.of_eq rfl rfl owners
  indexed := by
    refine forall_mem_modify (f := Method.masked) h.indexed fun d _ b hb => ?_
    obtain ⟨-, -, rfl⟩ := Option.map_eq_some_iff.mp hb
    exact LiveBody.indexed_of_nil rfl
  blank i d hd hi := by
    have apart : k.index ≠ i := (k.number.toNat_lt.trans_le hi).ne
    rw [Module.mask, modifyMethod, Array.getElem?_modify, if_neg apart] at hd
    exact h.blank i d hd hi
  accepted := by
    rw [view_mask]
    refine ModuleFile.check_modifyMethod h.accepted
      (fun d hd => ⟨hd.owner, hd.result, hd.params, hd.name⟩) fun d c hc => ?_
    obtain ⟨-, -, rfl⟩ := Option.map_eq_some_iff.mp hc
    exact .inr ⟨.of_empty rfl rfl (List.forall_mem_nil _) (Nat.zero_le _),
      List.forall_mem_nil _, List.forall_mem_nil _⟩
  room := Arena.size_disown.trans_le h.room

namespace Frame

variable (frame : m.Frame k m')
include frame

/-- The other methods of the file are what they were. -/
theorem getElem?_view (h : m.Storable) {i : Nat} (hi : i ≠ k.index) :
    m'.view.methods[i]? = m.view.methods[i]? := by
  rw [Module.view, Array.getElem?_map, Module.view, Array.getElem?_map, frame.methods i hi]
  refine Option.map_congr fun d hd => Method.view_congr fun b hb => ?_
  refine LiveBody.view_congr fun id hid => ?_
  obtain ⟨small, owner⟩ := h.owner?_of_mem hd hb hid
  refine frame.arena.get?_of_owner? (fun same => hi ?_) owner
  rw [← same, MethodId.index_ofIndex small]

/-- What is seen of a masked method is how it is declared and whether it has a body. -/
theorem map_masked : (m'.view.methods[k.index]?).map Method.masked =
    (m.view.methods[k.index]?).map Method.masked := by
  have seen : ∀ (m : Module), (m.view.methods[k.index]?).map Method.masked =
      (m.method? k).map fun d => ({ d with
        flags := d.flags.makePublic
        body := if d.body.isSome then some Body.empty else none } : Method FileBody) := by
    intro m
    rw [Module.view, Array.getElem?_map, Option.map_map]
    refine Option.map_congr fun d _ => ?_
    obtain ⟨owner, name, flags, signature, body⟩ := d
    cases body <;> rfl
  have head := Tables.head_of_declarations frame.declarations k
  have body := frame.isSome_body?
  rw [body?, body?] at body
  rw [seen, seen]
  cases hd : m.method? k with
  | none =>
    rw [hd, Option.map_none, Option.map_eq_none_iff] at head
    rw [head]
  | some d =>
    rw [hd, Option.map_some] at head
    obtain ⟨d', hd', head⟩ := Option.map_eq_some_iff.mp head
    rw [hd, hd', Option.bind_some, Option.bind_some] at body
    obtain ⟨owner, name, flags, signature, b⟩ := d
    obtain ⟨owner', name', flags', signature', b'⟩ := d'
    cases head
    rw [hd', Option.map_some, Option.map_some, body]

/-- An edit of one body is seen no more once its method is masked. -/
theorem view_mask (h : m.Storable) : (m'.mask k).view = (m.mask k).view := by
  have methods : m'.view.methods.modify k.index Method.masked =
      m.view.methods.modify k.index Method.masked := by
    refine Array.ext_getElem? fun i => ?_
    rw [Array.getElem?_modify, Array.getElem?_modify]
    split
    · rename_i hi
      rw [← hi]
      exact frame.map_masked
    · rename_i hi
      exact frame.getElem?_view h (Ne.symm hi)
  have name : m'.name = m.name :=
    congrArg (fun t : Tables Members Empty => t.name) frame.declarations
  have types := Tables.records_eq_of_header (Tables.header_of_declarations frame.declarations)
  have fields := Tables.fields_eq_of_declarations frame.declarations
  rw [Module.view_mask, Module.view_mask]
  simp only [ModuleFile.modifyMethod, methods]
  simp only [Module.view, name, types, fields]

end Frame

/-- Nor is that a method was made public. -/
theorem mask_makePublic :
    (m.modifyMethod k fun d => { d with flags := d.flags.makePublic }).mask k = m.mask k := by
  have step : ∀ d : Method LiveBody,
      ({ d with flags := d.flags.makePublic } : Method LiveBody).masked = d.masked := fun d =>
    congrArg (fun flags => { d.masked with flags }) d.flags.makePublic_makePublic
  exact congrArg (fun d : Module => { d with arena := m.arena.disown k })
    (modifyMethod_modifyMethod step)

end Module

end Graft
