import Graft.Edit.Whole
import Graft.Proofs.Apply
import Graft.Proofs.Checks

/-!
# What edits leave behind

An edit of a body that succeeds gives the body new content and the arena new slots, and raises the
declared stack depth if need be: `Module.rebuilt` is the module after that. One that fails leaves
the module as it was, but for the body being touched. The theorems here say for each edit when it
succeeds and which body and which arena it leaves; what the edits preserve is derived from that.
-/

namespace Graft

/-! ## Modules with a body put in -/

namespace Module

variable {m m' : Module} {j k : MethodId} {b b' : LiveBody} {a : Arena} {id : InsnId}

/-- The module with another body of a method and another arena. -/
def withBody (m : Module) (k : MethodId) (b : LiveBody) (a : Arena) : Module :=
  { m.setBody k b with arena := a }

/-- The module after an edit of the body of a method. -/
def rebuilt (m : Module) (k : MethodId) (b : LiveBody) (a : Arena) : Module :=
  ((m.touch k).withBody k b a).raiseMaxStack k

/-- The stack depth that a body declares once it has been raised to what the body needs. -/
def raisedDepth (m : Module) (k : MethodId) (b : LiveBody) : UInt16 :=
  match m.simulate k with
  | .ok required => max b.maxStack (.ofNat required)
  | .error _ => b.maxStack

/-- The declared depth is never lowered. -/
theorem le_raisedDepth : b.maxStack ≤ m.raisedDepth k b := by
  rw [raisedDepth]
  cases m.simulate k with
  | ok required =>
    show b.maxStack ≤ if _ then _ else _
    split
    · assumption
    · exact UInt16.le_refl _
  | error fault => exact UInt16.le_refl _

@[simp] theorem toTables_touch (m : Module) (k : MethodId) :
    (m.touch k).toTables = m.toTables := rfl

@[simp] theorem arena_touch (m : Module) (k : MethodId) : (m.touch k).arena = m.arena := rfl

@[simp] theorem body?_touch (m : Module) (k j : MethodId) : (m.touch k).body? j = m.body? j := rfl

theorem insertId_insertId (ks : List MethodId) : insertId k (insertId k ks) = insertId k ks := by
  induction ks with
  | nil => simp [insertId]
  | cons i ks ih =>
    by_cases before : k.number < i.number
    · simp [insertId, before]
    · by_cases same : k = i
      · simp [insertId, same]
      · simp [insertId, before, same, ih]

/-- Being touched twice is being touched. -/
theorem touch_touch : (m.touch k).touch k = m.touch k := by
  unfold touch
  rw [insertId_insertId]

theorem method?_modifyMethod (f : Method LiveBody → Method LiveBody) :
    (m.modifyMethod k f).method? j = if j = k then (m.method? k).map f else m.method? j := by
  simp only [modifyMethod, Tables.method?, Array.getElem?_modify, MethodId.index_inj,
    eq_comm (a := k)]
  split
  · subst_vars
    rfl
  · rfl

theorem body?_modifyMethod {f : Method LiveBody → Method LiveBody}
    (body : ∀ d, (f d).body = d.body) (j : MethodId) :
    (m.modifyMethod k f).body? j = m.body? j := by
  rw [body?, method?_modifyMethod, body?]
  by_cases hj : j = k
  · subst hj
    cases m.method? j <;> simp [body]
  · rw [if_neg hj]

@[simp] theorem size_methods_modifyMethod (f : Method LiveBody → Method LiveBody) :
    (m.modifyMethod k f).methods.size = m.methods.size :=
  Array.size_modify

theorem body?_of_method? {d : Method LiveBody} (h : m.method? k = some d) : m.body? k = d.body := by
  rw [body?, h, Option.bind_some]

theorem exists_method? (h : m.body? k = some b) : ∃ d, m.method? k = some d ∧ d.body = some b := by
  rwa [body?, Option.bind_eq_some_iff] at h

theorem setBody_self (h : m.body? k = some b) : m.setBody k b = m := by
  have same : m.methods.modify k.index (fun d => { d with body := some b }) = m.methods := by
    obtain ⟨d, hd, hb⟩ := exists_method? h
    refine Array.ext_getElem? fun i => ?_
    rw [Array.getElem?_modify]
    split
    · rename_i hi
      subst hi
      have hd : m.methods[k.index]? = some d := hd
      rw [hd]
      exact congrArg some (by rw [← hb])
    · rfl
  unfold setBody modifyMethod
  rw [same]

/-- Of two changes of an entry, one is enough if it does what both do. -/
theorem modifyMethod_modifyMethod {f g h : Method LiveBody → Method LiveBody}
    (same : ∀ d, g (f d) = h d) : (m.modifyMethod k f).modifyMethod k g = m.modifyMethod k h := by
  have methods : (m.methods.modify k.index f).modify k.index g = m.methods.modify k.index h := by
    refine Array.ext_getElem? fun i => ?_
    simp only [Array.getElem?_modify]
    split
    · rw [Option.map_map]
      exact congrArg (fun g => m.methods[i]?.map g) (funext same)
    · rfl
  exact congrArg (fun methods => { m with methods }) methods

theorem setBody_setBody : (m.setBody k b).setBody k b' = m.setBody k b' :=
  modifyMethod_modifyMethod fun _ => rfl

section withBody

@[simp] theorem types_withBody : (m.withBody k b a).types = m.types := rfl

@[simp] theorem fields_withBody : (m.withBody k b a).fields = m.fields := rfl

@[simp] theorem arena_withBody : (m.withBody k b a).arena = a := rfl

@[simp] theorem touched_withBody : (m.withBody k b a).touched = m.touched := rfl

@[simp] theorem size_methods_withBody : (m.withBody k b a).methods.size = m.methods.size :=
  size_methods_modifyMethod _

theorem method?_withBody :
    (m.withBody k b a).method? j =
      if j = k then (m.method? k).map ({ · with body := some b }) else m.method? j :=
  method?_modifyMethod _

theorem body?_withBody_self (h : m.body? k = some b') : (m.withBody k b a).body? k = some b := by
  obtain ⟨d, hd, -⟩ := exists_method? h
  rw [body?, method?_withBody, if_pos rfl, hd]
  rfl

theorem body?_withBody_of_ne (h : j ≠ k) : (m.withBody k b a).body? j = m.body? j := by
  rw [body?, method?_withBody, if_neg h, body?]

theorem raiseMaxStack_eq (h : m.body? k = some b) :
    m.raiseMaxStack k = m.setBody k { b with maxStack := m.raisedDepth k b } := by
  unfold raiseMaxStack raisedDepth
  rw [h]
  cases m.simulate k with
  | ok required => rfl
  | error fault => exact (setBody_self h).symm

@[simp] theorem arena_raiseMaxStack : (m.raiseMaxStack k).arena = m.arena := by
  unfold raiseMaxStack
  split <;> rfl

@[simp] theorem arena_rebuilt : (m.rebuilt k b a).arena = a := arena_raiseMaxStack

/-- An edited module is the module with a body put in. -/
theorem rebuilt_eq (h : m.body? k = some b') :
    m.rebuilt k b a =
      (m.touch k).withBody k
        { b with maxStack := ((m.touch k).withBody k b a).raisedDepth k b } a := by
  rw [rebuilt, raiseMaxStack_eq (body?_withBody_self (m := m.touch k) h)]
  exact congrArg (fun m : Module => { m with arena := a }) setBody_setBody

/-- The body that an edit has left: its declared stack depth may have been raised. -/
theorem exists_body?_rebuilt (h : m.body? k = some b') : ∃ depth, b.maxStack ≤ depth ∧
    (m.rebuilt k b a).body? k = some { b with maxStack := depth } := by
  rw [rebuilt_eq h]
  exact ⟨_, le_raisedDepth, body?_withBody_self (m := m.touch k) h⟩

theorem eq_of_body?_rebuilt {c : LiveBody} (h : m.body? k = some c)
    (left : (m.rebuilt k b a).body? k = some b') :
    ∃ depth, b.maxStack ≤ depth ∧ b' = { b with maxStack := depth } := by
  obtain ⟨depth, deep, body⟩ := exists_body?_rebuilt h (b := b) (a := a)
  exact ⟨depth, deep, Option.some.inj (left.symm.trans body)⟩

end withBody

end Module

/-! ## Edits that succeed -/

/-- Jumps and markers that referred to the old instruction refer to the new one. -/
def follow (old new l : InsnId) : InsnId := if l = old then new else l

/-- The arena after an instruction took the place of `old` in a body, which now has the handles. -/
def Arena.replace (a : Arena) (k : MethodId) (old : InsnId) (i : Instruction InsnId)
    (ids : List InsnId) : Arena :=
  ((a.append k [i]).releaseAll [old]).modifyAll ids (·.mapLabels (follow old (.ofIndex a.size)))

namespace Edit

variable {m m' : Module} {k source : MethodId} {b : LiveBody} {i : Instruction InsnId}
  {id : InsnId} {ids : List InsnId} {p first last : Nat}

theorem apply_insertAt_ok :
    (insertAt k p i).apply m = (.ok id, m') ↔
      ∃ b, m.body? k = some b ∧ p ≤ b.code.length ∧
        (i.Resolves m.toTables ∧ i.Fits (m.argumentCount k) b.locals.length ∧
          ∀ l ∈ i.targets, l ∈ b.code) ∧
        id = .ofIndex m.arena.size ∧
        m' = m.rebuilt k (b.insert p (m.arena.nextIds 1)) (m.arena.append k [i]) := by
  simp only [insertAt, apply_start_bind_ok, apply_require_bind_ok, apply_alloc_bind,
    apply_setBody_bind, apply_finish_bind, apply_pure, Module.checkPosition_eq_ok,
    Module.checkPlacement_eq_ok, Prod.mk.injEq, Except.ok.injEq]
  refine exists_congr fun b => and_congr_right fun _ => and_congr_right fun _ =>
    and_congr_right fun _ => ?_
  exact and_congr ⟨Eq.symm, Eq.symm⟩ ⟨Eq.symm, Eq.symm⟩

theorem apply_append_ok {code : List (Instruction InsnId)} :
    (append k code).apply m = (.ok ids, m') ↔
      ∃ b, m.body? k = some b ∧
        (∀ i ∈ code, i.Resolves m.toTables ∧ i.Fits (m.argumentCount k) b.locals.length ∧
          ∀ l ∈ i.targets, l ∈ b.code) ∧
        ids = m.arena.nextIds code.length ∧
        m' = m.rebuilt k (b.insert b.code.length (m.arena.nextIds code.length))
          (m.arena.append k code) := by
  simp only [append, apply_start_bind_ok, apply_require_bind_ok, apply_alloc_bind,
    apply_setBody_bind, apply_finish_bind, apply_pure, Module.checkPlacement_eq_ok,
    forM_zipIdx_eq_ok, Prod.mk.injEq, Except.ok.injEq]
  refine exists_congr fun b => and_congr_right fun _ => and_congr ?_ ?_
  · constructor
    · intro h i hi
      obtain ⟨p, hp⟩ := List.mem_iff_getElem?.mp hi
      exact h p i hp
    · intro h p i hp
      exact h i (List.mem_of_getElem? hp)
  · exact and_congr ⟨Eq.symm, Eq.symm⟩ ⟨Eq.symm, Eq.symm⟩

theorem apply_removeRange_ok :
    (removeRange k first last).apply m = (.ok ids, m') ↔
      ∃ b ranges, m.body? k = some b ∧ (first ≤ last ∧ last < b.code.length) ∧
        m.checkNoJumpsInto k b first last (b.span first last) = .ok () ∧
        m.survivors k b (b.span first last) = .ok ranges ∧
        ids = b.span first last ∧
        m' = m.rebuilt k { b.without first last with ranges }
          (m.arena.releaseAll (b.span first last)) := by
  simp only [removeRange, apply_start_bind_ok, apply_require_bind_ok,
    Module.checkRemovable_eq_ok]
  simp only [apply_check_bind_ok, apply_setBody_bind, apply_release_bind, apply_finish_bind,
    apply_pure, Prod.mk.injEq, Except.ok.injEq]
  constructor
  · rintro ⟨b, hb, hs, hj, ranges, hr, rfl, rfl⟩
    exact ⟨b, ranges, hb, hs, hj, hr, rfl, rfl⟩
  · rintro ⟨b, ranges, hb, hs, hj, hr, rfl, rfl⟩
    exact ⟨b, hb, hs, hj, ranges, hr, rfl, rfl⟩

theorem apply_replaceAt_ok :
    (replaceAt k p i).apply m = (.ok id, m') ↔
      ∃ b old, m.body? k = some b ∧ b.code[p]? = some old ∧
        (i.Resolves m.toTables ∧ i.Fits (m.argumentCount k) b.locals.length ∧
          ∀ l ∈ i.targets, l ∈ b.code) ∧
        id = .ofIndex m.arena.size ∧
        m' = m.rebuilt k (b.replace p (follow old (.ofIndex m.arena.size)) (.ofIndex m.arena.size))
          (m.arena.replace k old i (b.code.set p (.ofIndex m.arena.size))) := by
  simp only [replaceAt, apply_start_bind_ok]
  simp only [apply_check_bind_ok (α := InsnId), apply_require_bind_ok, apply_alloc_bind,
    apply_setBody_bind, apply_release_bind, apply_modifyInstructions_bind, apply_finish_bind,
    apply_pure, Module.handleAt_eq_ok, Module.checkPlacement_eq_ok, Prod.mk.injEq,
    Except.ok.injEq]
  constructor
  · rintro ⟨b, hb, old, hold, hi, rfl, rfl⟩
    exact ⟨b, old, hb, hold, hi, rfl, rfl⟩
  · rintro ⟨b, old, hb, hold, hi, rfl, rfl⟩
    exact ⟨b, hb, old, hold, hi, rfl, rfl⟩

theorem apply_splice_ok {f : Fragment} :
    (splice k p f).apply m = (.ok ids, m') ↔
      ∃ b, m.body? k = some b ∧ p ≤ b.code.length ∧
        (∀ i ∈ f.code, i.Resolves m.toTables ∧ i.Fits (m.argumentCount k) b.locals.length) ∧
        ids = m.arena.nextIds f.code.length ∧
        m' = m.rebuilt k
          { b.insert p (m.arena.nextIds f.code.length) with
            ranges := f.liveRanges m.arena.size ++ b.ranges }
          (m.arena.append k (f.instructions m.arena.size)) := by
  have count : (f.instructions m.arena.size).length = f.code.length := List.length_map _
  simp only [splice, apply_start_bind_ok, apply_require_bind_ok, apply_get_bind, apply_alloc_bind,
    apply_setBody_bind, apply_finish_bind, apply_pure, Module.checkPosition_eq_ok, forM_eq_ok,
    Tables.checkOperands_eq_ok, Module.arena_touch, count, Prod.mk.injEq, Except.ok.injEq]
  refine exists_congr fun b => and_congr_right fun _ => and_congr_right fun _ =>
    and_congr_right fun _ => ?_
  exact and_congr ⟨Eq.symm, Eq.symm⟩ ⟨Eq.symm, Eq.symm⟩

/-- The handle must be in the body. -/
theorem apply_assign_ok :
    (assign k id i).apply m = (.ok (), m') ↔
      ∃ b, m.body? k = some b ∧ id ∈ b.code ∧
        (i.Resolves m.toTables ∧ i.Fits (m.argumentCount k) b.locals.length ∧
          ∀ l ∈ i.targets, l ∈ b.code) ∧
        m' = m.rebuilt k b (m.arena.modifyAll [id] fun _ => i) := by
  simp only [assign, apply_start_bind_ok]
  refine exists_congr fun b => and_congr_right fun hb => ?_
  rw [LiveBody.positionOf?_eq]
  by_cases hid : id ∈ b.code
  · have same : (m.touch k).setBody k b = m.touch k := Module.setBody_self hb
    rw [if_pos hid]
    simp only [apply_require_bind_ok, apply_modifyInstructions_bind, apply_finish,
      Module.checkPlacement_eq_ok, Module.rebuilt, Module.withBody, same, hid, true_and,
      Prod.mk.injEq]
    exact and_congr_right fun _ => ⟨Eq.symm, Eq.symm⟩
  · simp [hid]

theorem apply_assignAt_ok :
    (assignAt k p i).apply m = (.ok (), m') ↔
      ∃ b id, m.body? k = some b ∧ b.code[p]? = some id ∧
        (i.Resolves m.toTables ∧ i.Fits (m.argumentCount k) b.locals.length ∧
          ∀ l ∈ i.targets, l ∈ b.code) ∧
        m' = m.rebuilt k b (m.arena.modifyAll [id] fun _ => i) := by
  simp only [assignAt, apply_start_bind_ok, apply_check_bind_ok, Module.handleAt_eq_ok,
    apply_assign_ok, Module.rebuilt, Module.touch_touch]
  constructor
  · rintro ⟨b, hb, id, hid, b', hb', -, hi, rfl⟩
    obtain rfl : b = b' := Option.some.inj (hb.symm.trans hb')
    exact ⟨b, id, hb, hid, hi, rfl⟩
  · rintro ⟨b, id, hb, hid, hi, rfl⟩
    exact ⟨b, hb, id, hid, b, hb, List.mem_of_getElem? hid, hi, rfl⟩

theorem apply_addLocal_ok {s : TypeSig} {slot : UInt16} :
    (addLocal k s).apply m = (.ok slot, m') ↔
      ∃ b, m.body? k = some b ∧ (∀ id, s.mentioned? = some id → id.index < m.types.size) ∧
        b.locals.length < maxLocals ∧ slot = .ofNat b.locals.length ∧
        m' = (m.touch k).withBody k (b.withLocal s)
          m.arena := by
  simp only [addLocal, apply_start_bind_ok, apply_require_bind_ok, apply_setBody_bind, apply_pure,
    Tables.checkOperandType_eq_ok, Module.checkLocalsLeft_eq_ok, Prod.mk.injEq, Except.ok.injEq]
  refine exists_congr fun b => and_congr_right fun _ => and_congr_right fun _ =>
    and_congr_right fun _ => ?_
  exact and_congr ⟨Eq.symm, Eq.symm⟩ ⟨Eq.symm, Eq.symm⟩

theorem apply_declareMaxStack_ok {depth : UInt16} :
    (declareMaxStack k depth).apply m = (.ok (), m') ↔
      ∃ b, m.body? k = some b ∧
        m' = (m.touch k).withBody k { b with maxStack := depth } m.arena := by
  simp only [declareMaxStack, apply_start_bind_ok, apply_setBody, Prod.mk.injEq, true_and]
  exact exists_congr fun b => and_congr_right fun _ => ⟨Eq.symm, Eq.symm⟩

theorem apply_resetBody_ok {fresh : LiveBody} :
    (resetBody k fresh).apply m = (.ok (), m') ↔
      ∃ b, m.body? k = some b ∧ m' = (m.touch k).withBody k fresh (m.arena.releaseAll b.code) := by
  simp only [resetBody, apply_start_bind_ok, apply_release_bind, apply_setBody, Prod.mk.injEq,
    true_and]
  exact exists_congr fun b => and_congr_right fun _ => ⟨Eq.symm, Eq.symm⟩

/-! ## Calls in front of a body -/

/-- The last step of injecting a call: its code is put in front, and behind it the drop of what the
callee gives. -/
def placeCall (k callee : MethodId) (call : List (Instruction Empty)) : Edit (List InsnId) := do
  let drop := if (← get).givesValue callee then [.pop] else []
  splice k 0 (.straight (call ++ drop))

theorem apply_placeCall {callee : MethodId} (call : List (Instruction Empty)) (m : Module) :
    (placeCall k callee call).apply m =
      (splice k 0 (.straight (call ++ if m.givesValue callee then [.pop] else []))).apply m :=
  apply_get_bind _ m

/-- The step before it declares the local of the receiver, if there is one. -/
theorem injectCall_eq {callee : MethodId} :
    injectCall k callee = (do
      discard (check (·.body k))
      check (·.checkInjectable callee)
      match ← check (·.receiver? callee) with
      | none => placeCall k callee [.call .direct callee]
      | some (type, constructor) => do
        let slot ← addLocal k type
        placeCall k callee (receiverCall type constructor slot callee)) := by
  refine congrArg (bind _) (funext fun _ => congrArg (bind _) (funext fun _ => ?_))
  refine congrArg (bind _) (funext fun receiver => ?_)
  cases receiver with
  | none => exact pure_bind ..
  | some receiver => exact congrArg (bind _) (funext fun _ => pure_bind ..)

/-! ## Copies of signatures -/

/-- The last step of copying a signature: the locals are copied into the method that has been
declared. -/
def copyLocals (d : Method LiveBody) (k : MethodId) : Edit MethodId := do
  match d.body, (← get).body? k with
  | some b, some new => setBody k { new with locals := b.locals, initLocals := b.initLocals }
  | _, _ => pure ()
  return k

/-- Copying a signature declares the method first. -/
theorem cloneSignature_eq {owner : TypeId} {template : MethodId} {name : String} :
    cloneSignature owner template name = (do
      let m ← get
      match m.method? template with
      | none => check fun m => .error (.noBody (m.methodName template))
      | some d => addMethod owner name d.flags d.signature >>= copyLocals d) := by
  refine congrArg (bind get) (funext fun m => ?_)
  cases m.method? template <;> rfl

end Edit

/-! ## Types of locals and fields -/

namespace Module

variable {L : Type} {m m' : Module} {k : MethodId} {type : TypeSig} {slot : UInt16}
  {i : Instruction L}

/-- A local that was added is found at its index, and all others are what they were. -/
theorem localType?_of_addLocal (added : (Edit.addLocal k type).apply m = (.ok slot, m'))
    (n : Nat) :
    m'.localType? k n = if n = slot.toNat then some type else m.localType? k n := by
  obtain ⟨b, hb, -, room, rfl, rfl⟩ := Edit.apply_addLocal_ok.mp added
  have last : (UInt16.ofNat b.locals.length).toNat = b.locals.length := by
    have size : maxLocals = UInt16.size := rfl
    exact UInt16.toNat_ofNat_of_lt' (size ▸ room)
  have new : ((m.touch k).withBody k (b.withLocal type) m.arena).body? k =
      some (b.withLocal type) := body?_withBody_self (m := m.touch k) hb
  rw [localType?, localType?, new, hb, last, LiveBody.withLocal]
  simp only [Option.bind_some]
  split
  · rename_i same
    rw [same, List.getElem?_concat_length]
    rfl
  · rename_i other
    rw [List.getElem?_append, List.getElem?_singleton]
    split
    · rfl
    · rename_i outside
      have past : b.locals.length < n := by omega
      rw [if_neg (by omega), List.getElem?_eq_none past.le]

/-- If all that an instruction mentions is there, so is the type of the field that it accesses. -/
theorem isSome_accessedType? (resolves : i.Resolves m.toTables) :
    (m.accessedType? i).isSome = i.field?.isSome := by
  rw [accessedType?, Option.isSome_map]
  cases hf : i.field? with
  | none => rfl
  | some f =>
    rw [Option.bind_some, Tables.field?, Array.getElem?_eq_getElem (resolves.field f hf)]
    rfl

end Module

end Graft
