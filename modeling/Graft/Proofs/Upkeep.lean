import Graft.Proofs.QualifiedNames
import Graft.Proofs.Session

/-!
# What the library keeps in order

Declarations check names and that they are free, and edits of bodies check what instructions and
locals mention. So in a module that was loaded, whatever is declared and edited, names stay valid
and distinct, types stay nested in earlier ones, and all instructions and locals mention only what
is in the tables. Nothing is kept in order about the types in signatures and in catch clauses, which
nobody checks.
-/

namespace Graft

variable {μ μ' β β' : Type}

/-! ## Declarations -/

/-- All that is asked of declarations but for the types that signatures mention. If there are more
types or fields than numbers for them, their names may repeat. -/
structure Tables.Orderly (t : Tables μ β) : Prop where
  types : ∀ (i : Nat) d, t.records[i]? = some d → d.WellFormed i
  names : t.types.size ≤ Arena.capacity → t.typeNames.toList.Nodup
  fields : ∀ d ∈ t.fields, d.owner.index < t.types.size ∧ IsName d.name
  members : t.fields.size ≤ Arena.capacity →
    (t.fields.toList.map fun d => (d.owner, d.name)).Nodup
  methods : ∀ d ∈ t.methods, d.owner.index < t.types.size ∧ IsName d.name

/-- Members are distinct if none is like an earlier one. -/
theorem nodup_members_iff {fields : Array FieldDef} :
    (fields.toList.map fun d => (d.owner, d.name)).Nodup ↔
      ∀ (i : Nat) (d : FieldDef), fields[i]? = some d → ∀ j < i, ∀ e, fields[j]? = some e →
        e.owner = d.owner → e.name ≠ d.name := by
  rw [List.Nodup, List.pairwise_map, List.pairwise_iff_getElem]
  simp only [Array.length_toList, Array.getElem_toList, ne_eq, Prod.mk.injEq, not_and]
  constructor
  · intro apart i d hd j before e he
    obtain ⟨hi, rfl⟩ := Array.getElem?_eq_some_iff.mp hd
    obtain ⟨hj, rfl⟩ := Array.getElem?_eq_some_iff.mp he
    exact apart j i hj hi before
  · intro apart j i hj hi before
    exact apart i _ (Array.getElem?_eq_getElem hi) j before _ (Array.getElem?_eq_getElem hj)

namespace Tables

variable {t : Tables μ β} {t' : Tables μ' β'}

theorem mem_heads_of_header (same : t'.header = t.header) {d : Method β'} (hd : d ∈ t'.methods) :
    ∃ e ∈ t.methods, d.head = e.head := by
  have hd : d.head ∈ t.methods.map Method.head :=
    heads_eq_of_header same ▸ Array.mem_map_of_mem hd
  obtain ⟨e, he, head⟩ := Array.mem_map.mp hd
  exact ⟨e, he, head.symm⟩

theorem Orderly.of_header (h : t.Orderly) (same : t'.header = t.header) : t'.Orderly := by
  have types := records_eq_of_header same
  have size := size_types_congr types
  have fields := fields_eq_of_header same
  refine ⟨?_, ?_, ?_, ?_, fun d hd => ?_⟩
  · rw [types]
    exact h.types
  · rw [size, typeNames_congr types]
    exact h.names
  · rw [fields, size]
    exact h.fields
  · rw [fields]
    exact h.members
  · obtain ⟨e, he, head⟩ := mem_heads_of_header same hd
    rw [size, Method.owner_of_head head, show d.name = e.name from congrArg Method.name head]
    exact h.methods e he

end Tables

/-! ## Instructions in the arena -/

/-- What holds of the instructions in all slots. -/
def Arena.All (P : Instruction InsnId → Prop) (a : Arena) : Prop := ∀ s ∈ a.slots, P s.instruction

namespace Arena.All

variable {P Q : Instruction InsnId → Prop} {a : Arena} {k : MethodId}

theorem imp (h : a.All P) (hpq : ∀ i, P i → Q i) : a.All Q := fun s hs => hpq _ (h s hs)

theorem append (h : a.All P) {code : List (Instruction InsnId)} (new : ∀ i ∈ code, P i) :
    (a.append k code).All P := by
  intro s hs
  rw [← Array.mem_toList_iff, toList_slots_append, List.mem_append] at hs
  rcases hs with hs | hs
  · exact h s (Array.mem_toList_iff.mp hs)
  · obtain ⟨i, hi, rfl⟩ := List.mem_map.mp hs
    exact new i hi

theorem release (h : a.All P) (id : InsnId) : (a.release id).All P := by
  intro s hs
  obtain ⟨n, hn⟩ := Array.mem_iff_getElem?.mp hs
  rw [Arena.release, Array.getElem?_modify] at hn
  split at hn
  · obtain ⟨s', hs', rfl⟩ := Option.map_eq_some_iff.mp hn
    exact h s' (Array.mem_of_getElem? hs')
  · exact h s (Array.mem_of_getElem? hn)

theorem modify (h : a.All P) {f : Instruction InsnId → Instruction InsnId}
    (hf : ∀ i, P i → P (f i)) (id : InsnId) : (a.modify id f).All P := by
  intro s hs
  obtain ⟨n, hn⟩ := Array.mem_iff_getElem?.mp hs
  rw [Arena.modify, Array.getElem?_modify] at hn
  split at hn
  · obtain ⟨s', hs', rfl⟩ := Option.map_eq_some_iff.mp hn
    exact hf _ (h s' (Array.mem_of_getElem? hs'))
  · exact h s (Array.mem_of_getElem? hn)

theorem releaseAll (h : a.All P) (ids : List InsnId) : (a.releaseAll ids).All P := by
  induction ids generalizing a with
  | nil => exact h
  | cons id ids ih => exact ih (h.release id)

theorem modifyAll (h : a.All P) {f : Instruction InsnId → Instruction InsnId}
    (hf : ∀ i, P i → P (f i)) (ids : List InsnId) : (a.modifyAll ids f).All P := by
  induction ids generalizing a with
  | nil => exact h
  | cons id ids ih => exact ih (h.modify hf id)

end Arena.All

/-! ## Modules -/

/-- Declarations are in order, each type lists what names it, and instructions and locals mention
what exists. -/
structure Module.Upkept (m : Module) : Prop where
  orderly : m.Orderly
  coherent : m.Coherent
  code : m.arena.All (·.Resolves m.toTables)
  bodies : ∀ d ∈ m.methods, ∀ b, d.body = some b → b.Furnished m.toTables

namespace Module.Upkept

variable {m : Module} {k : MethodId} {b b' : LiveBody} {a : Arena} {d : Method LiveBody}

theorem withTouched (h : m.Upkept) (ks : List MethodId) : { m with touched := ks }.Upkept :=
  ⟨h.orderly, h.coherent, h.code, h.bodies⟩

theorem touch (h : m.Upkept) : (m.touch k).Upkept := h.withTouched _

theorem body (h : m.Upkept) (hb : m.body? k = some b) : b.Furnished m.toTables := by
  obtain ⟨d, hd, hb⟩ := exists_method? hb
  exact h.bodies d (Array.mem_of_getElem? hd) b hb

theorem withBody (h : m.Upkept) (code : a.All (·.Resolves m.toTables))
    (furnished : b.Furnished m.toTables) : (m.withBody k b a).Upkept where
  orderly := h.orderly.of_header (Tables.header_of_declarations declarations_withBody)
  coherent := h.coherent.of_declarations declarations_withBody
  code := code.imp fun i hi => hi.mono le_rfl size_methods_withBody.ge le_rfl
  bodies := by
    have kept : ∀ d ∈ m.methods, ∀ c, d.body = some c →
        c.Furnished (m.withBody k b a).toTables := fun d hd c hc => (h.bodies d hd c hc).mono le_rfl
    refine forall_mem_modify (f := ({ · with body := some b })) kept fun d _ c hc => ?_
    cases hc
    exact furnished.mono le_rfl

/-- What an edit of a body leaves if it succeeds. -/
theorem rebuilt (h : m.Upkept) (hb : m.body? k = some b') (code : a.All (·.Resolves m.toTables))
    (same : b.locals = b'.locals) : (m.rebuilt k b a).Upkept := by
  rw [rebuilt_eq hb]
  exact h.touch.withBody code ((h.body hb).of_locals_eq same)

/-- What a method is besides its body changes, but for its name and its types. -/
theorem setFlags (h : m.Upkept) {g : MethodFlags → MethodFlags} :
    (m.modifyMethod k fun d => { d with flags := g d.flags }).Upkept := by
  let step (d : Method LiveBody) : Method LiveBody := { d with flags := g d.flags }
  refine ⟨⟨h.orderly.types, ?_, h.orderly.fields, h.orderly.members, ?_⟩, ?_,
    h.code.imp fun i hi => hi.mono le_rfl Array.size_modify.ge le_rfl, ?_⟩
  · have names : (m.modifyMethod k step).typeNames = m.typeNames := Tables.typeNames_congr rfl
    exact fun room => names ▸ h.orderly.names room
  · exact forall_mem_modify (f := step) h.orderly.methods fun _ valid => valid
  · have owners : (m.methods.modify k.index step).map Method.owner = m.methods.map Method.owner :=
      map_modify_of_eq fun _ => rfl
    exact h.coherent.of_eq rfl rfl owners
  · have kept : ∀ d ∈ m.methods, ∀ b, d.body = some b →
        b.Furnished (m.modifyMethod k step).toTables := fun d hd b hb =>
      (h.bodies d hd b hb).mono le_rfl
    exact forall_mem_modify (f := step) kept fun _ furnished => furnished

/-- A new method with a valid name on a type that exists, and with locals of types that exist. -/
theorem addMethod (h : m.Upkept) (owner : d.owner.index < m.types.size) (name : IsName d.name)
    (body : ∀ b, d.body = some b → b.Furnished m.toTables) : (m.addMethod d).Upkept := by
  have records : (m.addMethod d).records = m.records := Tables.records_enterMethod
  have types : (m.addMethod d).types.size = m.types.size := Tables.size_types_enterMethod
  refine ⟨⟨?_, ?_, ?_, h.orderly.members, fun e he => ?_⟩, h.coherent.enterMethod owner,
    h.code.imp fun i hi => hi.mono le_rfl (by simp) types.ge, fun e he b hb => ?_⟩
  · rw [records]
    exact h.orderly.types
  · rw [types, Tables.typeNames_congr records]
    exact h.orderly.names
  · rw [types]
    exact h.orderly.fields
  · rw [types]
    rcases Array.mem_push.mp he with he | rfl
    · exact h.orderly.methods e he
    · exact ⟨owner, name⟩
  · rcases Array.mem_push.mp he with he | rfl
    · exact (h.bodies e he b hb).mono types.ge
    · exact (body b hb).mono types.ge

/-- A new type in order, with a qualified name that no type has. -/
theorem addType {d : TypeRecord} (h : m.Upkept) (wellFormed : d.WellFormed m.types.size)
    (fresh : m.types.size < Arena.capacity → ∀ i < m.types.size, m.typeName (.ofIndex i) ≠
      (m.enterType d).typeName (.ofIndex m.types.size)) :
    { m with toTables := m.enterType d }.Upkept := by
  have records : (m.enterType d).records = m.records.push d := Tables.records_enterType
  have fields : (m.enterType d).fields = m.fields := Tables.fields_enterType
  have methods : (m.enterType d).methods = m.methods := Tables.methods_enterType
  have size := Tables.size_types_push records
  have more : m.types.size ≤ (m.enterType d).types.size := size ▸ Nat.le_succ _
  refine ⟨⟨fun i e he => ?_, fun room => ?_, ?_, ?_, ?_⟩,
    h.coherent.enterType fun o outer => wellFormed.outer o outer,
    h.code.imp fun i hi => hi.mono (by rw [fields]) (by rw [methods]) more, ?_⟩
  · have he : (m.enterType d).records[i]? = some e := he
    rw [records, Array.getElem?_push, Tables.size_records] at he
    split at he
    · rename_i last
      cases he
      rw [last]
      exact wellFormed
    · exact h.orderly.types i e he
  · have room : m.types.size < Arena.capacity := Nat.lt_of_succ_le (size.ge.trans room)
    exact Tables.nodup_typeNames_push records room.le (h.orderly.names room.le) (fresh room)
  · show ∀ e ∈ (m.enterType d).fields, e.owner.index < (m.enterType d).types.size ∧ IsName e.name
    rw [fields]
    exact fun e he => (h.orderly.fields e he).imp_left more.trans_lt'
  · show (m.enterType d).fields.size ≤ Arena.capacity →
      ((m.enterType d).fields.toList.map fun e => (e.owner, e.name)).Nodup
    rw [fields]
    exact h.orderly.members
  · show ∀ e ∈ (m.enterType d).methods, e.owner.index < (m.enterType d).types.size ∧ IsName e.name
    rw [methods]
    exact fun e he => (h.orderly.methods e he).imp_left more.trans_lt'
  · show ∀ e ∈ (m.enterType d).methods, ∀ b, e.body = some b → b.Furnished (m.enterType d)
    rw [methods]
    exact fun e he b hb => (h.bodies e he b hb).mono more

/-- A new field with a valid name that no field of its type has. -/
theorem addField {d : FieldDef} (h : m.Upkept) (owner : d.owner.index < m.types.size)
    (name : IsName d.name)
    (fresh : m.fields.size < Arena.capacity → ∀ e ∈ m.fields, e.owner = d.owner → e.name ≠ d.name) :
    { m with toTables := m.enterField d }.Upkept := by
  have records : (m.enterField d).records = m.records := Tables.records_enterField
  have types : (m.enterField d).types.size = m.types.size := Tables.size_types_enterField
  refine ⟨⟨?_, ?_, fun e he => ?_, fun room => ?_, ?_⟩, h.coherent.enterField owner,
    h.code.imp fun i hi => hi.mono (by simp) le_rfl types.ge, fun e he b hb =>
      (h.bodies e he b hb).mono types.ge⟩
  · show ∀ (i : Nat) e, (m.enterField d).records[i]? = some e → e.WellFormed i
    rw [records]
    exact h.orderly.types
  · show (m.enterField d).types.size ≤ Arena.capacity → (m.enterField d).typeNames.toList.Nodup
    rw [types, Tables.typeNames_congr records]
    exact h.orderly.names
  · show e.owner.index < (m.enterField d).types.size ∧ IsName e.name
    rw [types]
    rcases Array.mem_push.mp he with he | rfl
    · exact h.orderly.fields e he
    · exact ⟨owner, name⟩
  · have room : m.fields.size < Arena.capacity := Nat.lt_of_succ_le (by simpa using room)
    show ((m.fields.push d).toList.map fun e => (e.owner, e.name)).Nodup
    rw [Array.toList_push, List.map_append, List.nodup_append]
    refine ⟨h.orderly.members room.le, List.nodup_singleton _, fun x hx y hy same => ?_⟩
    obtain ⟨e, he, rfl⟩ := List.mem_map.mp hx
    obtain rfl := List.mem_singleton.mp hy
    obtain ⟨owner, name⟩ := Prod.mk.inj same
    exact fresh room e (Array.mem_toList_iff.mp he) owner name
  · show ∀ e ∈ m.methods, e.owner.index < (m.enterField d).types.size ∧ IsName e.name
    rw [types]
    exact h.orderly.methods

end Module.Upkept

/-! ## Names that are free -/

namespace Module

variable {m : Module} {owner outer : TypeId} {name qualified : String}

theorem checkNewType_eq_ok : m.checkNewType qualified = .ok () ↔
    ∀ i < m.types.size, m.typeName (.ofIndex i) ≠ qualified := by
  rw [checkNewType]
  split
  · rename_i taken
    refine iff_of_false nofun fun free => ?_
    obtain ⟨id, hid, same⟩ := List.any_eq_true.mp taken
    obtain ⟨i, hi, rfl⟩ := List.mem_map.mp hid
    exact free i (List.mem_range.mp hi) (of_decide_eq_true same)
  · rename_i free
    refine iff_of_true rfl fun i hi same => free (List.any_eq_true.mpr ⟨.ofIndex i, ?_, ?_⟩)
    · exact List.mem_map.mpr ⟨i, List.mem_range.mpr hi, rfl⟩
    · exact decide_eq_true same

theorem checkNewNestedType_eq_ok :
    m.checkNewNestedType outer name = .ok () ↔ m.findNestedType outer name = none := by
  rw [checkNewNestedType]
  cases m.findNestedType outer name <;> simp

theorem checkNewField_eq_ok :
    m.checkNewField owner name = .ok () ↔ m.findField owner name = none := by
  rw [checkNewField]
  cases m.findField owner name <;> simp

/-- A type is found by the type around it and its name. -/
theorem free_of_checkNewNestedType (coherent : m.Coherent)
    (h : m.checkNewNestedType outer name = .ok ()) (room : m.types.size ≤ Arena.capacity) (i : Nat)
    (d : TypeDef Members) (hd : m.types[i]? = some d) (nested : d.outer = some outer) :
    d.name ≠ name := by
  intro same
  have hi : i < m.types.size := (Array.getElem?_eq_some_iff.mp hd).1
  have entry : m.type? (.ofIndex i) = some d := by
    rw [Tables.type?, TypeId.index_ofIndex (hi.trans_le room), hd]
  have none := checkNewNestedType_eq_ok.mp h
  refine absurd none (Option.isSome_iff_ne_none.mp (List.find?_isSome.mpr ⟨.ofIndex i, ?_, ?_⟩))
  · exact (coherent.mem_nestedOf room).mpr ⟨d, entry, nested⟩
  · simp [entry, same]

/-- A field is found by its type and its name. -/
theorem free_of_checkNewField (coherent : m.Coherent) (h : m.checkNewField owner name = .ok ())
    (room : m.fields.size ≤ Arena.capacity) (d : FieldDef) (hd : d ∈ m.fields)
    (member : d.owner = owner) : d.name ≠ name := by
  intro same
  obtain ⟨i, hd⟩ := Array.mem_iff_getElem?.mp hd
  have hi : i < m.fields.size := (Array.getElem?_eq_some_iff.mp hd).1
  have entry : m.field? (.ofIndex i) = some d := by
    rw [Tables.field?, FieldId.index_ofIndex (hi.trans_le room), hd]
  have none := checkNewField_eq_ok.mp h
  refine absurd none (Option.isSome_iff_ne_none.mp (List.find?_isSome.mpr ⟨.ofIndex i, ?_, ?_⟩))
  · exact (coherent.mem_fieldsOf room).mpr ⟨d, entry, member⟩
  · simp [entry, same]

end Module

/-! ## Edits -/

/-- A module that is in order stays so, also if the edit fails. -/
def Contract.upkeep : Contract := .always fun m m' => m.Upkept → m'.Upkept

instance : Contract.upkeep.Idle := Contract.idle_always fun _ => id

instance : Contract.upkeep.Chains :=
  Contract.chains_always fun first second h => second (first h)

namespace Edit

variable {α : Type} {m : Module} {k source template callee : MethodId} {owner outer : TypeId}
  {space name : String} {p first last count : Nat} {i : Instruction InsnId} {f : Fragment}

/-- The edit keeps modules in order. -/
def Upholds (e : Edit α) : Prop := e.Meets .upkeep

/-- What an edit leaves if it fails is in order, so only success needs a look. -/
theorem meetsAt_upkeep {target : Option MethodId} {e : Edit α} (staged : e.Staged target)
    (done : ∀ a m', m.Upkept → e.apply m = (.ok a, m') → m'.Upkept) : e.MeetsAt .upkeep m := by
  refine meetsAt_always.mpr fun h => ?_
  exact staged.refuses.after h (fun k _ => h.touch) fun a m' => done a m' h

/-! ## Edits of one body -/

theorem upholds_start : (start k).Upholds := meets_start fun _ h => h.touch

theorem upholds_insertAt : (insertAt k p i).Upholds := by
  refine fun m => meetsAt_upkeep staged_insertAt fun id m' h ran => ?_
  obtain ⟨b, hb, -, ⟨resolves, -⟩, -, rfl⟩ := apply_insertAt_ok.mp ran
  exact h.rebuilt hb (h.code.append (List.forall_mem_singleton.mpr resolves)) rfl

theorem upholds_append {code : List (Instruction InsnId)} : (append k code).Upholds := by
  refine fun m => meetsAt_upkeep staged_append fun ids m' h ran => ?_
  obtain ⟨b, hb, placed, -, rfl⟩ := apply_append_ok.mp ran
  exact h.rebuilt hb (h.code.append fun i hi => (placed i hi).1) rfl

theorem upholds_removeRange : (removeRange k first last).Upholds := by
  refine fun m => meetsAt_upkeep staged_removeRange fun ids m' h ran => ?_
  obtain ⟨b, ranges, hb, -, -, -, -, rfl⟩ := apply_removeRange_ok.mp ran
  exact h.rebuilt hb (h.code.releaseAll _) rfl

theorem upholds_replaceAt : (replaceAt k p i).Upholds := by
  refine fun m => meetsAt_upkeep staged_replaceAt fun id m' h ran => ?_
  obtain ⟨b, old, hb, -, ⟨resolves, -⟩, -, rfl⟩ := apply_replaceAt_ok.mp ran
  have added := (h.code.append (k := k) (List.forall_mem_singleton.mpr resolves)).releaseAll [old]
  exact h.rebuilt hb (added.modifyAll (fun _ => Instruction.resolves_mapLabels.mpr) _) rfl

theorem upholds_assign {id : InsnId} : (assign k id i).Upholds := by
  refine fun m => meetsAt_upkeep staged_assign fun _ m' h ran => ?_
  obtain ⟨b, hb, -, ⟨resolves, -⟩, rfl⟩ := apply_assign_ok.mp ran
  exact h.rebuilt hb (h.code.modifyAll (fun _ _ => resolves) _) rfl

theorem upholds_assignAt : (assignAt k p i).Upholds :=
  meets_assignAt upholds_start fun _ => upholds_assign

theorem upholds_splice : (splice k p f).Upholds := by
  refine fun m => meetsAt_upkeep staged_splice fun ids m' h ran => ?_
  obtain ⟨b, hb, -, operands, -, rfl⟩ := apply_splice_ok.mp ran
  refine h.rebuilt hb (h.code.append fun i hi => ?_) rfl
  obtain ⟨j, hj, rfl⟩ := List.mem_map.mp hi
  exact Instruction.resolves_mapLabels.mpr (operands j hj).1

theorem upholds_copyRange : (copyRange k source first last p).Upholds :=
  meets_copyRange upholds_start fun m _ _ => upholds_splice m

theorem upholds_pad : (pad k p count).Upholds := meets_pad upholds_start upholds_splice

theorem upholds_addLocal {s : TypeSig} : (addLocal k s).Upholds := by
  refine fun m => meetsAt_upkeep staged_addLocal fun slot m' h ran => ?_
  obtain ⟨b, hb, known, room, -, rfl⟩ := apply_addLocal_ok.mp ran
  exact h.touch.withBody h.code ((h.body hb).withLocal known room)

theorem upholds_declareMaxStack {depth : UInt16} : (declareMaxStack k depth).Upholds := by
  refine fun m => meetsAt_upkeep staged_declareMaxStack fun _ m' h ran => ?_
  obtain ⟨b, hb, rfl⟩ := apply_declareMaxStack_ok.mp ran
  exact h.touch.withBody h.code ((h.body hb).of_locals_eq rfl)

/-- The new body must bring locals of types that exist. -/
theorem upholds_resetBody {fresh : LiveBody} (furnished : m.Upkept → fresh.Furnished m.toTables) :
    (resetBody k fresh).MeetsAt .upkeep m := by
  refine meetsAt_upkeep staged_resetBody fun _ m' h ran => ?_
  obtain ⟨b, -, rfl⟩ := apply_resetBody_ok.mp ran
  exact h.touch.withBody (h.code.releaseAll _) (furnished h)

/-! ## Edits of whole methods -/

theorem upholds_returnLiteral {value : Literal TypeId} : (returnLiteral k value).Upholds :=
  meets_returnLiteral (fun _ => upholds_resetBody fun _ => .of_nil rfl) fun _ => upholds_append

/-- The locals that are copied are those of a body that is there. -/
theorem upholds_copyBody : (copyBody source k).Upholds := by
  refine meets_copyBody fun m f rest whole => ?_
  obtain ⟨b, hb, -, -, rfl⟩ := wholeBody_eq_ok.mp whole
  refine MeetsAt.bind (upholds_resetBody fun h => ?_) fun _ m₁ _ => upholds_splice m₁
  exact (h.body hb).of_locals_eq rfl

theorem upholds_injectCall : (injectCall k callee).Upholds :=
  meets_injectCall (fun _ => upholds_addLocal) fun _ => upholds_splice

/-! ## Declarations -/

theorem upholds_addType {flags : TypeFlags} : (addType space name flags).Upholds := by
  refine fun m => meetsAt_upkeep staged_addType fun id m' h ran => ?_
  obtain ⟨hs, hn, free, -, rfl⟩ := apply_addType_ok.mp ran
  have wellFormed : TypeDef.WellFormed m.types.size ⟨space, name, flags, none, ()⟩ :=
    ⟨Tables.requireNamespace_eq_ok.mp hs, Tables.requireName_eq_ok.mp hn, nofun⟩
  refine h.addType wellFormed fun room i hi => ?_
  rw [Tables.typeName_push_top Tables.records_enterType room rfl]
  exact Module.checkNewType_eq_ok.mp free i hi

/-- The type around the new one must be there. -/
theorem upholds_addNestedType {flags : TypeFlags} (around : outer.index < m.types.size) :
    (addNestedType outer name flags).MeetsAt .upkeep m := by
  refine meetsAt_upkeep staged_addNestedType fun id m' h ran => ?_
  obtain ⟨hn, free, -, rfl⟩ := apply_addNestedType_ok.mp ran
  have hn := Tables.requireName_eq_ok.mp hn
  refine h.addType ⟨.inl rfl, hn, by rintro _ ⟨⟩; exact around⟩ fun room i hi => ?_
  rw [Tables.typeName_push_nested Tables.records_enterType room rfl around]
  exact Tables.ne_nestedName h.orderly.types room.le (h.orderly.names room.le) hn around
    (Module.free_of_checkNewNestedType h.coherent free room.le) hi

theorem upholds_addField {flags : FieldFlags} {type : TypeSig}
    (member : owner.index < m.types.size) :
    (addField owner name flags type).MeetsAt .upkeep m := by
  refine meetsAt_upkeep staged_addField fun id m' h ran => ?_
  obtain ⟨hn, free, -, rfl⟩ := apply_addField_ok.mp ran
  exact h.addField member (Tables.requireName_eq_ok.mp hn) fun room =>
    Module.free_of_checkNewField h.coherent free room.le

theorem upholds_addMethod {flags : MethodFlags} {signature : MethodSig}
    (member : owner.index < m.types.size) :
    (addMethod owner name flags signature).MeetsAt .upkeep m := by
  refine meetsAt_always.mpr fun h => ?_
  rw [apply_addMethod]
  cases hn : Tables.requireName name with
  | error fault => exact h
  | ok _ =>
    refine h.addMethod member (Tables.requireName_eq_ok.mp hn) fun b hb => ?_
    simp only [Option.ite_none_right_eq_some, Option.some.injEq] at hb
    obtain ⟨-, rfl⟩ := hb
    exact .of_nil rfl

theorem upholds_cloneSignature (member : owner.index < m.types.size) :
    (cloneSignature owner template name).MeetsAt .upkeep m := by
  refine meetsAt_always.mpr fun h => ?_
  rw [cloneSignature_eq, apply_get_bind]
  cases hd : m.method? template with
  | none => exact h
  | some d =>
    -- the locals that are copied have types of the module before, which are still there
    refine meetsAt_always.mp ((upholds_addMethod member).bind fun k m₁ added => ?_) h
    have types : m₁.types.size = m.types.size := by
      rw [apply_addMethod] at added
      split at added <;> cases added
      exact Tables.size_types_enterMethod
    refine meetsAt_always.mpr fun h₁ => ?_
    rw [copyLocals, apply_get_bind]
    cases hb : d.body with
    | none => exact h₁
    | some b =>
      cases m₁.body? k with
      | none => exact h₁
      | some new =>
        have old := h.bodies d (Array.mem_of_getElem? hd) b hb
        exact h₁.withBody h₁.code ((old.mono (by rw [types])).of_locals_eq rfl)

end Edit

/-! ## Sessions -/

/-- The type on which an action declares something. -/
def Action.owner? : Action → Option TypeId
  | .addNestedType outer _ _ => some outer
  | .addField owner _ _ _ => some owner
  | .addMethod owner _ _ _ => some owner
  | .cloneSignature owner _ _ => some owner
  | _ => none

namespace Session

variable {s : Session} {m : Module} {kept : List Fragment} {a : Action}

/-- Nothing is declared on a type that does not exist: the identifiers of types that a session uses
are those that the module has given out. -/
def Proper (s : Session) : List Action → Prop
  | [] => True
  | a :: rest =>
    (∀ id, a.owner? = some id → id.index < s.current.types.size) ∧ Proper (s.step a) rest

theorem upholds_edit (owner : ∀ id, a.owner? = some id → id.index < m.types.size) :
    (a.edit kept).MeetsAt .upkeep m := by
  cases a with
  | addType => exact (Edit.upholds_addType m).discard
  | addNestedType => exact (Edit.upholds_addNestedType (owner _ rfl)).discard
  | addField => exact (Edit.upholds_addField (owner _ rfl)).discard
  | addMethod => exact (Edit.upholds_addMethod (owner _ rfl)).discard
  | insertAt => exact (Edit.upholds_insertAt m).discard
  | append => exact (Edit.upholds_append m).discard
  | removeRange => exact (Edit.upholds_removeRange m).discard
  | replaceAt => exact (Edit.upholds_replaceAt m).discard
  | assign => exact Edit.upholds_assign m
  | assignAt => exact Edit.upholds_assignAt m
  | make => exact Edit.Meets.pure () m
  | lift => exact Edit.Meets.pure () m
  | splice k p number =>
    rw [Action.edit]
    split
    · exact (Edit.upholds_splice m).discard
    · exact Edit.Meets.pure () m
  | copyRange => exact (Edit.upholds_copyRange m).discard
  | pad => exact (Edit.upholds_pad m).discard
  | addLocal => exact (Edit.upholds_addLocal m).discard
  | declareMaxStack => exact Edit.upholds_declareMaxStack m
  | returnLiteral => exact (Edit.upholds_returnLiteral m).discard
  | injectCall => exact (Edit.upholds_injectCall m).discard
  | cloneSignature => exact (Edit.upholds_cloneSignature (owner _ rfl)).discard
  | copyBody => exact (Edit.upholds_copyBody m).discard

theorem upkept_step (h : s.current.Upkept)
    (owner : ∀ id, a.owner? = some id → id.index < s.current.types.size) :
    (s.step a).current.Upkept :=
  Edit.meetsAt_always.mp (upholds_edit owner) h

/-- What a sequence of actions preserves. -/
theorem upkept_run {actions : List Action} (h : s.current.Upkept) (proper : s.Proper actions) :
    (s.run actions).current.Upkept := by
  induction actions generalizing s with
  | nil => exact h
  | cons a actions ih => exact ih (upkept_step h proper.1) proper.2

end Session

/-! ## Loaded modules -/

namespace Placement

variable {f : ModuleFile}

/-- The instructions of a built module are those of the file but for labels. -/
theorem all_build (h : f.check = .ok ()) : f.build.arena.All (·.Resolves f.build.toTables) := by
  intro s hs
  obtain ⟨n, hn⟩ := Array.mem_iff_getElem?.mp hs
  obtain ⟨i, d, c, p, hd, hc, hp, rfl, -⟩ := (placed_build f).origin n s hn
  rw [Array.getElem?_toList] at hd
  have slot := slot_build hd hc (List.getElem?_eq_getElem hp)
  obtain rfl : s = _ := Option.some.inj (hn.symm.trans slot)
  refine Instruction.resolves_mapLabels.mpr ?_
  have refs := ModuleFile.references_of_check h hd hc
  refine (refs.resolves _ (List.getElem_mem hp)).mono ?_ ?_ (size_types_build f).ge
  · rw [fields_build]
  · exact (placed_build f).length.ge.trans' Array.length_toList.ge

theorem upkept_build (wellFormed : f.WellFormed) : f.build.Upkept := by
  have check := ModuleFile.check_eq_ok_iff_wellFormed.mpr wellFormed
  have method : ∀ d ∈ f.build.methods, ∃ e ∈ f.methods, ∃ n, d = e.placeAt n := by
    intro d hd
    obtain ⟨i, hi⟩ := Array.mem_iff_getElem?.mp hd
    rw [(placed_build f).method, Array.getElem?_toList] at hi
    obtain ⟨e, he, rfl⟩ := Option.map_eq_some_iff.mp hi
    exact ⟨e, Array.mem_of_getElem? he, _, rfl⟩
  have records : f.build.records = f.types := records_build f
  have size := size_types_build f
  have names : f.build.typeNames = f.typeNames :=
    Tables.typeNames_congr (records.trans (Tables.records_of_unit f.toTables).symm)
  refine ⟨⟨?_, fun _ => names ▸ wellFormed.names, ?_, ?_, ?_⟩, f.coherent_build check,
    all_build check, ?_⟩
  · rw [records]
    exact wellFormed.types
  · rw [fields_build, size]
    intro d hd
    obtain ⟨i, hi⟩ := Array.mem_iff_getElem?.mp hd
    exact ⟨(wellFormed.fields i d hi).owner, (wellFormed.fields i d hi).name⟩
  · rw [fields_build]
    exact fun _ => nodup_members_iff.mpr fun i d hd => (wellFormed.fields i d hd).fresh
  · rw [size]
    intro d hd
    obtain ⟨e, he, n, rfl⟩ := method d hd
    exact ⟨(wellFormed.methods e he).owner, (wellFormed.methods e he).name⟩
  · intro d hd b hb
    obtain ⟨e, he, n, rfl⟩ := method d hd
    obtain ⟨c, hc, rfl⟩ := Option.map_eq_some_iff.mp hb
    have known := (wellFormed.methods e he).known c hc
    have locals : (c.place n).locals.map LocalSlot.type = c.locals := LocalSlot.map_type_number
    refine ⟨fun s hs => ?_, ?_, FileBody.indexed_place⟩
    · have hs : s.type ∈ c.locals := locals ▸ List.mem_map_of_mem hs
      exact fun id hid => (known.locals s.type hs id hid).trans_eq size.symm
    · exact LocalSlot.length_number.trans_le known.count

end Placement

end Graft
