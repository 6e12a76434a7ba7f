import Graft.Proofs.Coherence
import Graft.Proofs.Fragments

/-!
# Declarations keep modules sound

A declaration only adds to the tables: nothing that could be looked up before is another thing
afterwards, and a new method has no instructions yet.
-/

namespace Graft

/-- A method that is still to be filled in, or has nothing to fill in. -/
def Method.Blank (d : Method LiveBody) : Prop :=
  ∀ b, d.body = some b → b.code = [] ∧ b.ranges = []

namespace Module

variable {m m' : Module} {j k : MethodId} {d : Method LiveBody}

/-- The module with one more method. -/
def addMethod (m : Module) (d : Method LiveBody) : Module := { m with toTables := m.enterMethod d }

/-- The method that is declared next. -/
def nextMethod (m : Module) : MethodId := .ofIndex m.methods.size

theorem method?_addMethod :
    (m.addMethod d).method? k = if k.index = m.methods.size then some d else m.method? k :=
  Array.getElem?_push

@[simp] theorem size_methods_addMethod :
    (m.addMethod d).methods.size = m.methods.size + 1 :=
  Array.size_push d

theorem body?_enterType (d : TypeRecord) (k : MethodId) :
    ({ m with toTables := m.enterType d } : Module).body? k = m.body? k := by
  simp only [body?, Tables.method?, Tables.methods_enterType]

theorem body?_addMethod :
    (m.addMethod d).body? k = if k.index = m.methods.size then d.body else m.body? k := by
  rw [body?, method?_addMethod]
  split <;> rfl

theorem method?_size (h : k.index = m.methods.size) : m.method? k = none :=
  Array.getElem?_eq_none h.ge

theorem index_nextMethod (h : m.methods.size < Arena.capacity) :
    m.nextMethod.index = m.methods.size :=
  MethodId.index_ofIndex h

theorem body?_nextMethod (h : m.methods.size < Arena.capacity) :
    (m.addMethod d).body? m.nextMethod = d.body := by
  rw [body?_addMethod, if_pos (index_nextMethod h)]

theorem setBody_nextMethod (h : m.methods.size < Arena.capacity) {b : LiveBody} :
    (m.addMethod d).setBody m.nextMethod b = m.addMethod { d with body := some b } := by
  have same : (m.methods.push d).modify m.methods.size ({ · with body := some b }) =
      m.methods.push { d with body := some b } := by
    refine Array.ext_getElem? fun i => ?_
    rw [Array.getElem?_modify, Array.getElem?_push, Array.getElem?_push]
    split
    · subst i
      simp
    · rename_i hi
      rw [if_neg fun h => hi h.symm, if_neg fun h => hi h.symm]
  unfold setBody modifyMethod addMethod Tables.enterMethod
  rw [index_nextMethod h, same]

/-- If methods keep their entries, a body is one that was there, or belongs to a new method. -/
theorem body?_grow (old : ∀ k d, m.method? k = some d → m'.method? k = some d)
    (new : ∀ k d, m.method? k = none → m'.method? k = some d → d.Blank) (k : MethodId) :
    m'.body? k = m.body? k ∨
      m.body? k = none ∧ ∀ b, m'.body? k = some b → b.code = [] ∧ b.ranges = [] := by
  cases hd : m.method? k with
  | some d => exact .inl ((body?_of_method? (old k d hd)).trans (body?_of_method? hd).symm)
  | none =>
    refine .inr ⟨by rw [body?, hd]; rfl, fun b hb => ?_⟩
    obtain ⟨d, hd', hb⟩ := exists_method? hb
    exact new k d hd hd' b hb

/-- A module stays linked if its methods keep their bodies and new bodies are blank. -/
theorem Linked.grow (h : m.Linked) (arena : m'.arena = m.arena)
    (old : ∀ k d, m.method? k = some d → m'.method? k = some d)
    (new : ∀ k d, m.method? k = none → m'.method? k = some d → d.Blank) : m'.Linked := by
  constructor
  · intro id k
    rw [arena, h.owner_iff]
    rcases body?_grow old new k with same | ⟨none, blank⟩
    · rw [same]
    · rw [none]
      refine iff_of_false (by simp) ?_
      rintro ⟨b, hb, hid⟩
      rw [(blank b hb).1] at hid
      cases hid
  · intro k b hb
    rcases body?_grow old new k with same | ⟨none, blank⟩
    · rw [same] at hb
      exact (h.bodies k b hb).congr fun _ _ => by rw [arena]
    · exact .of_empty (blank b hb).1 (blank b hb).2

/-- It stays sound if besides its tables grow and its methods keep their arguments. -/
theorem Sound.grow (h : m.Sound) (arena : m'.arena = m.arena)
    (fields : m.fields.size ≤ m'.fields.size) (methods : m.methods.size ≤ m'.methods.size)
    (types : m.types.size ≤ m'.types.size)
    (old : ∀ k d, m.method? k = some d → m'.method? k = some d)
    (new : ∀ k d, m.method? k = none → m'.method? k = some d → d.Blank) : m'.Sound := by
  refine ⟨(h.linked.grow arena old new).owner_iff, fun k b hb => ?_⟩
  rcases body?_grow old new k with same | ⟨none, blank⟩
  · rw [same] at hb
    obtain ⟨d, hd, -⟩ := exists_method? hb
    refine (h.bodies k b hb).congr fields methods types ?_ fun _ _ => by rw [arena]
    rw [Tables.argumentCount, Tables.argumentCount, hd, old k d hd]
  · exact .of_empty (blank b hb).1 (blank b hb).2

/-- The methods that were there keep their entries. -/
theorem method?_addMethod_of_some {d' : Method LiveBody} (hd' : m.method? k = some d') :
    (m.addMethod d).method? k = some d' := by
  rw [method?_addMethod, if_neg]
  · exact hd'
  · intro hk
    rw [method?_size hk] at hd'
    cases hd'

/-- The only new method is the one that is added. -/
theorem method?_addMethod_of_none {d' : Method LiveBody} (hd : m.method? k = none)
    (hd' : (m.addMethod d).method? k = some d') : d' = d := by
  rw [method?_addMethod] at hd'
  split at hd'
  · exact (Option.some.inj hd').symm
  · rw [hd] at hd'
    cases hd'

theorem Linked.addMethod (h : m.Linked) (blank : d.Blank) : (m.addMethod d).Linked := by
  refine h.grow rfl (fun k d' => method?_addMethod_of_some) fun k d' hd hd' => ?_
  rw [method?_addMethod_of_none hd hd']
  exact blank

theorem Sound.addMethod (h : m.Sound) (blank : d.Blank) : (m.addMethod d).Sound := by
  refine h.grow rfl le_rfl (by simp) Tables.size_types_enterMethod.ge
    (fun k d' => method?_addMethod_of_some) fun k d' hd hd' => ?_
  rw [method?_addMethod_of_none hd hd']
  exact blank

/-- New types and fields have nothing to do with bodies. -/
theorem Sound.of_methods_eq (h : m.Sound) (arena : m'.arena = m.arena)
    (methods : m'.methods = m.methods) (fields : m.fields.size ≤ m'.fields.size)
    (types : m.types.size ≤ m'.types.size) : m'.Sound := by
  have same : ∀ k, m'.method? k = m.method? k := fun k => congrArg (·[k.index]?) methods
  refine h.grow arena fields (le_of_eq (by rw [methods])) types (fun k d hd => ?_)
    fun k d none hd => ?_
  · rw [same, hd]
  · rw [same, none] at hd
    cases hd

end Module

namespace Edit

variable {α : Type} {m m' : Module} {k template : MethodId} {owner outer : TypeId}
  {space name : String}

/-! ## Types and fields -/

theorem apply_addType_ok {flags : TypeFlags} {id : TypeId} :
    (addType space name flags).apply m = (.ok id, m') ↔
      Tables.requireNamespace space = .ok () ∧ Tables.requireName name = .ok () ∧
        m.checkNewType (qualify space name) = .ok () ∧ id = .ofIndex m.types.size ∧
        m' = { m with toTables := m.enterType ⟨space, name, flags, none, ()⟩ } := by
  simp only [addType, apply_require_bind_ok, apply_get_bind, apply_update_bind, apply_pure,
    Prod.mk.injEq, Except.ok.injEq]
  refine and_congr_right fun _ => and_congr_right fun _ => and_congr_right fun _ => ?_
  exact and_congr ⟨Eq.symm, Eq.symm⟩ ⟨Eq.symm, Eq.symm⟩

/-- The flags of a type that is nested in another. -/
def nestedFlags (m : Module) (outer : TypeId) (flags : TypeFlags) : TypeFlags :=
  if m.isExternal outer then (flags.insert TypeFlags.nested).insert TypeFlags.external
  else flags.insert TypeFlags.nested

theorem apply_addNestedType_ok {flags : TypeFlags} {id : TypeId} :
    (addNestedType outer name flags).apply m = (.ok id, m') ↔
      Tables.requireName name = .ok () ∧ m.checkNewNestedType outer name = .ok () ∧
        id = .ofIndex m.types.size ∧
        m' = { m with
          toTables := m.enterType ⟨"", name, nestedFlags m outer flags, some outer, ()⟩ } := by
  simp only [addNestedType, apply_require_bind_ok, apply_get_bind, apply_update_bind, apply_pure,
    Prod.mk.injEq, Except.ok.injEq]
  refine and_congr_right fun _ => and_congr_right fun _ => ?_
  exact and_congr ⟨Eq.symm, Eq.symm⟩ ⟨Eq.symm, Eq.symm⟩

theorem apply_addField_ok {flags : FieldFlags} {type : TypeSig} {id : FieldId} :
    (addField owner name flags type).apply m = (.ok id, m') ↔
      Tables.requireName name = .ok () ∧ m.checkNewField owner name = .ok () ∧
        id = .ofIndex m.fields.size ∧
        m' = { m with toTables := m.enterField { owner, name, flags, type } } := by
  simp only [addField, apply_require_bind_ok, apply_get_bind, apply_update_bind, apply_pure,
    Prod.mk.injEq, Except.ok.injEq]
  refine and_congr_right fun _ => and_congr_right fun _ => ?_
  exact and_congr ⟨Eq.symm, Eq.symm⟩ ⟨Eq.symm, Eq.symm⟩

theorem safe_addType {flags : TypeFlags} : (addType space name flags).Safe := by
  refine .of_staged staged_addType fun m a m' hm n h => ?_
  obtain ⟨-, -, -, -, rfl⟩ := apply_addType_ok.mp h
  exact hm.of_methods_eq rfl Tables.methods_enterType (by simp) (by simp)

theorem safe_addNestedType {flags : TypeFlags} : (addNestedType outer name flags).Safe := by
  refine .of_staged staged_addNestedType fun m a m' hm n h => ?_
  obtain ⟨-, -, -, rfl⟩ := apply_addNestedType_ok.mp h
  exact hm.of_methods_eq rfl Tables.methods_enterType (by simp) (by simp)

theorem safe_addField {flags : FieldFlags} {type : TypeSig} :
    (addField owner name flags type).Safe := by
  refine .of_staged staged_addField fun m a m' hm n h => ?_
  obtain ⟨-, -, -, rfl⟩ := apply_addField_ok.mp h
  exact hm.of_methods_eq rfl rfl (by simp) (by simp)

/-! ## Methods -/

/-- Does a method of the type and with the flags get a body? -/
def getsBody (m : Module) (owner : TypeId) (flags : MethodFlags) : Bool :=
  ! m.isExternal owner && ! flags.has MethodFlags.abstract

theorem apply_addMethod (owner : TypeId) (name : String) (flags : MethodFlags)
    (signature : MethodSig) (m : Module) :
    (addMethod owner name flags signature).apply m =
      match Tables.requireName name with
      | .error fault => (.error fault, m)
      | .ok () =>
        (.ok m.nextMethod, m.addMethod
          { owner, name, flags, signature
            body := if getsBody m owner flags then some Body.empty else none }) := by
  simp only [addMethod, apply_check_bind, apply_get_bind, apply_update_bind, apply_pure]
  cases Tables.requireName name <;> rfl

/-- What is declared is a method that is still to be filled in. -/
theorem exists_addMethod_of_ok {flags : MethodFlags} {signature : MethodSig}
    (h : (addMethod owner name flags signature).apply m = (.ok k, m')) :
    ∃ d : Method LiveBody, d.Blank ∧ m' = m.addMethod d := by
  rw [apply_addMethod] at h
  split at h
  · cases h
  · cases h
    refine ⟨_, fun b hb => ?_, rfl⟩
    simp only [Option.ite_none_right_eq_some, Option.some.injEq] at hb
    obtain ⟨-, rfl⟩ := hb
    exact ⟨rfl, rfl⟩

theorem safe_addMethod {flags : MethodFlags} {signature : MethodSig} :
    (addMethod owner name flags signature).Safe := by
  refine .of_staged staged_addMethod fun m a m' hm n h => ?_
  obtain ⟨d, blank, rfl⟩ := exists_addMethod_of_ok h
  exact hm.addMethod blank

/-- What a copy of the signature of a method has of its body: the locals. -/
def signatureBody (m : Module) (owner : TypeId) (d : Method LiveBody) : Option LiveBody :=
  if getsBody m owner d.flags then
    some (d.body.elim Body.empty fun b =>
      { (Body.empty : LiveBody) with locals := b.locals, initLocals := b.initLocals })
  else none

/-- The copy comes last in the table of methods, and the other methods stay as they are. -/
theorem apply_cloneSignature_ok (room : m.methods.size < Arena.capacity) :
    (cloneSignature owner template name).apply m = (.ok k, m') ↔
      ∃ d, m.method? template = some d ∧ Tables.requireName name = .ok () ∧ k = m.nextMethod ∧
        m' = m.addMethod { d with owner, name, body := signatureBody m owner d } := by
  rw [cloneSignature_eq, apply_get_bind]
  cases m.method? template with
  | none => simp
  | some d =>
    simp only [Option.some.injEq, exists_eq_left']
    rw [apply_bind, apply_addMethod]
    cases Tables.requireName name with
    | error fault => simp
    | ok _ =>
      simp only [copyLocals, apply_get_bind, Module.body?_nextMethod room, signatureBody, true_and]
      cases getsBody m owner d.flags <;> cases d.body
      case true.some b =>
        simp only [if_true, Option.elim_some, apply_setBody_bind, apply_pure,
          Module.setBody_nextMethod room, Prod.mk.injEq, Except.ok.injEq]
        exact and_congr ⟨Eq.symm, Eq.symm⟩ ⟨Eq.symm, Eq.symm⟩
      all_goals
        simp only [if_true, Bool.false_eq_true, if_false, apply_pure, Prod.mk.injEq,
          Except.ok.injEq]
        exact and_congr ⟨Eq.symm, Eq.symm⟩ ⟨Eq.symm, Eq.symm⟩

/-- A copied signature is one more method. -/
theorem size_lt_of_cloneSignature
    (h : (cloneSignature owner template name).apply m = (.ok k, m')) :
    m.methods.size < m'.methods.size := by
  rw [cloneSignature_eq, apply_get_bind] at h
  cases hd : m.method? template with
  | none => simp [hd] at h
  | some d =>
    rw [hd, apply_bind, apply_addMethod] at h
    cases hn : Tables.requireName name with
    | error fault => simp [hn] at h
    | ok _ =>
      simp only [hn] at h
      obtain rfl := congrArg Prod.snd h
      have more := (changes_copyLocals.grows.of_eq h).methods
      exact Nat.lt_of_succ_le (Module.size_methods_addMethod.ge.trans more)

/-- So is a copy of a signature. -/
theorem exists_addMethod_of_cloneSignature (room : m'.methods.size ≤ Arena.capacity)
    (h : (cloneSignature owner template name).apply m = (.ok k, m')) :
    ∃ d : Method LiveBody, d.Blank ∧ m' = m.addMethod d := by
  obtain ⟨d, -, -, -, rfl⟩ :=
    (apply_cloneSignature_ok ((size_lt_of_cloneSignature h).trans_le room)).mp h
  refine ⟨_, fun b hb => ?_, rfl⟩
  simp only [signatureBody, Option.ite_none_right_eq_some, Option.some.injEq] at hb
  obtain ⟨-, rfl⟩ := hb
  cases d.body <;> exact ⟨rfl, rfl⟩

theorem safe_cloneSignature : (cloneSignature owner template name).Safe := by
  refine .of_staged staged_cloneSignature fun m k m' hm n h => ?_
  obtain ⟨d, blank, rfl⟩ := exists_addMethod_of_cloneSignature n.methods h
  exact hm.addMethod blank

end Edit

end Graft
