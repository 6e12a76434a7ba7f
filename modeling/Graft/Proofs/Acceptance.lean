import Graft.Proofs.Loading

/-!
# What loading asks of a file

Loading checks types, fields and methods one by one, and a file loads exactly if all of them pass.
The checks of types and fields look at no method, and those of a method look at no other one: it
must mention only types that exist, and so must its body, whose labels must not lead out of it.
-/

namespace Graft

variable {μ μ' α β β' ε : Type}

/-- A check, and what follows it. -/
theorem check_bind_eq_ok {x : Except ε Unit} {f : Unit → Except ε α} {a : α} :
    x >>= f = .ok a ↔ x = .ok () ∧ f () = .ok a := by
  rw [bind_eq_ok]
  exact ⟨fun ⟨⟨⟩, h, ha⟩ => ⟨h, ha⟩, fun ⟨h, ha⟩ => ⟨(), h, ha⟩⟩

/-! ## Types and fields -/

namespace Tables

variable {t : Tables μ β} {t' : Tables μ' β'}

/-- The types that a type mentions are in the table. -/
def Knows (t : Tables μ β) (s : TypeSig) : Prop :=
  ∀ id, s.mentioned? = some id → id.index < t.types.size

theorem Knows.mono {s : TypeSig} (h : t.Knows s) (types : t.types.size ≤ t'.types.size) :
    t'.Knows s :=
  fun id hid => (h id hid).trans_le types

/-- The name of a type goes by the types up to that one, whatever they list. -/
theorem typeName_congr_of_lt {n : Nat} (same : ∀ i < n, t'.records[i]? = t.records[i]?)
    (id : TypeId) (h : id.index < n) : t'.typeName id = t.typeName id := by
  induction hi : id.index using Nat.strong_induction_on generalizing id with
  | _ i ih =>
    subst hi
    have entry := same _ h
    rw [← map_record_type?, ← map_record_type?] at entry
    rw [typeName, typeName]
    cases hd : t.type? id with
    | none =>
      rw [hd] at entry
      rw [Option.map_eq_none_iff.mp entry]
    | some d =>
      rw [hd] at entry
      obtain ⟨d', hd', record⟩ := Option.map_eq_some_iff.mp entry
      have space : d'.space = d.space := congrArg (fun r : TypeRecord => r.space) record
      have name : d'.name = d.name := congrArg (fun r : TypeRecord => r.name) record
      have around : d'.outer = d.outer := congrArg (fun r : TypeRecord => r.outer) record
      simp only [hd', space, name, around]
      cases d.outer with
      | none => rfl
      | some outer =>
        dsimp only
        split
        · rename_i earlier
          rw [ih _ earlier outer (earlier.trans h) rfl]
        · rfl

/-- Names of types are made from types only. -/
theorem typeName_congr (h : t'.records = t.records) (id : TypeId) :
    t'.typeName id = t.typeName id :=
  typeName_congr_of_lt (fun _ _ => by rw [h]) id (Nat.lt_succ_self _)

theorem size_types_congr (h : t'.records = t.records) : t'.types.size = t.types.size := by
  rw [← size_records, h, size_records]

theorem typeNames_congr (h : t'.records = t.records) : t'.typeNames = t.typeNames := by
  have size := size_types_congr h
  refine Array.ext (by simp [typeNames, size]) fun i _ _ => ?_
  simp only [typeNames, Array.getElem_ofFn, typeName_congr h]

/-- All types and all fields pass their checks. -/
structure Lawful (t : Tables μ β) : Prop where
  types : ∀ i d, t.records[i]? = some d → checkType t.typeNames i d = .ok ()
  fields : ∀ i d, t.fields[i]? = some d → t.checkField i d = .ok ()

theorem checkField_congr (types : t'.records = t.records) (fields : t'.fields = t.fields)
    {i : Nat} {d : FieldDef} : t'.checkField i d = t.checkField i d := by
  unfold checkField checkTypeSig checkTypeId
  rw [size_types_congr types, fields, typeName_congr types]

/-- Methods have nothing to do with it, nor has what types list. -/
theorem Lawful.congr (h : t.Lawful) (types : t'.records = t.records)
    (fields : t'.fields = t.fields) : t'.Lawful where
  types i d hd := by
    rw [typeNames_congr types]
    exact h.types i d (types ▸ hd)
  fields i d hd := by
    rw [checkField_congr types fields]
    exact h.fields i d (fields ▸ hd)

end Tables

/-! ## Methods -/

/-- What a method is apart from its body mentions only types that exist, under a valid name. -/
structure Method.Declarable (t : Tables μ β) (d : Method β') : Prop where
  owner : d.owner.index < t.types.size
  result : t.Knows d.signature.result
  params : ∀ p ∈ d.signature.params, t.Knows p.type
  name : Tables.requireName d.name = .ok ()

/-- What a body mentions besides its own instructions exists, and each local has an index. -/
structure FileBody.Known (t : Tables μ β) (c : FileBody) : Prop where
  resolves : ∀ i ∈ c.code, i.Resolves t
  caught : ∀ r ∈ c.ranges, ∀ s, r.caught? = some s → t.Knows s
  locals : ∀ s ∈ c.locals, t.Knows s
  count : c.locals.length ≤ maxLocals

/-- The locals have types that exist, and are numbered in order. -/
structure LiveBody.Furnished (t : Tables μ β) (b : LiveBody) : Prop where
  locals : ∀ s ∈ b.locals, t.Knows s.type
  count : b.locals.length ≤ maxLocals
  indexed : b.Indexed

namespace LiveBody.Furnished

variable {t : Tables μ β} {t' : Tables μ' β'} {b b' : LiveBody}

theorem knows (h : b.Furnished t) : ∀ s ∈ b.locals.map LocalSlot.type, t.Knows s :=
  List.forall_mem_map.mpr h.locals

theorem mono (h : b.Furnished t) (types : t.types.size ≤ t'.types.size) : b.Furnished t' :=
  ⟨fun s hs => (h.locals s hs).mono types, h.count, h.indexed⟩

theorem of_locals_eq (h : b.Furnished t) (same : b'.locals = b.locals) : b'.Furnished t := by
  refine ⟨?_, ?_, h.indexed.of_locals_eq same⟩ <;> rw [same]
  · exact h.locals
  · exact h.count

theorem of_nil (none : b.locals = []) : b.Furnished t :=
  ⟨by simp [none], by simp [none], indexed_of_nil none⟩

theorem withLocal (h : b.Furnished t) {s : TypeSig} (known : t.Knows s)
    (room : b.locals.length < maxLocals) : (b.withLocal s).Furnished t where
  locals s' hs := by
    rcases List.mem_append.mp hs with hs | hs
    · exact h.locals s' hs
    · obtain rfl := List.mem_singleton.mp hs
      exact known
  count := by
    simp only [LiveBody.withLocal, List.length_append, List.length_singleton]
    exact room
  indexed := h.indexed.withLocal s

end LiveBody.Furnished

/-- No label of a body leads out of it. -/
structure FileBody.Closed (c : FileBody) : Prop where
  targets : ∀ i ∈ c.code, ∀ l ∈ i.targets, l.toNat < c.code.length
  markers : ∀ r ∈ c.ranges, ∀ l ∈ r.markers, l.toNat < c.code.length

namespace ModuleFile

variable {f : ModuleFile} {place : RecordPlace} {length : Nat}

theorem checkRange_eq_ok {r : ExceptionRange UInt32} :
    f.checkRange place length r = .ok () ↔
      (∀ s, r.caught? = some s → f.Knows s) ∧ ∀ l ∈ r.markers, l.toNat < length := by
  have labels : discard (r.mapLabelsM (checkLabel place length)) = .ok () ↔
      ∀ l ∈ r.markers, l.toNat < length := by
    rw [discard_eq_ok]
    constructor
    · rintro ⟨s, hs⟩ l hl
      obtain ⟨⟨⟩, hx⟩ := ExceptionRange.exists_of_mapLabelsM hs l hl
      exact checkLabel_eq_ok.mp hx
    · intro h
      exact ⟨_, ExceptionRange.mapLabelsM_of_markers (g := fun _ => ()) fun l hl =>
        checkLabel_eq_ok.mpr (h l hl)⟩
  rw [← labels, checkRange]
  cases r.caught? with
  | none => exact (and_iff_right nofun).symm
  | some s =>
    simp only [Option.some.injEq, forall_eq']
    exact check_bind_eq_ok.trans (and_congr_left' checkTypeSig_eq_ok)

theorem checkBody_eq_ok {name : String} {c : FileBody} :
    f.checkBody place name c = .ok () ↔ c.Known f.toTables ∧ c.Closed := by
  have few : c.locals.length ≤ maxLocals → c.locals.take (maxLocals + 1) = c.locals :=
    fun h => List.take_of_length_le (by omega)
  have count : (if maxLocals < c.locals.length then throw (.localsOverflow name) else pure () :
      Except Fault Unit) = .ok () ↔ c.locals.length ≤ maxLocals := by
    split
    · exact iff_of_false nofun (by omega)
    · exact iff_of_true rfl (by omega)
  unfold checkBody
  simp only [check_bind_eq_ok, forM_eq_ok, checkInstruction_eq_ok, checkRange_eq_ok,
    checkTypeSig_eq_ok]
  constructor
  · rintro ⟨code, ranges, locals, h⟩
    have h := count.mp h
    rw [few h] at locals
    exact ⟨⟨fun i hi => (code i hi).1, fun r hr => (ranges r hr).1, locals, h⟩,
      fun i hi => (code i hi).2, fun r hr => (ranges r hr).2⟩
  · rintro ⟨known, closed⟩
    refine ⟨fun i hi => ⟨known.resolves i hi, closed.targets i hi⟩,
      fun r hr => ⟨known.caught r hr, closed.markers r hr⟩, ?_, count.mpr known.count⟩
    rw [few known.count]
    exact known.locals

theorem checkMethod_eq_ok {i : Nat} {d : Method FileBody} :
    f.checkMethod i d = .ok () ↔
      d.Declarable f.toTables ∧ ∀ c, d.body = some c → c.Known f.toTables ∧ c.Closed := by
  have owner : f.checkTypeId (.method i) d.owner = .ok () ↔ d.owner.index < f.types.size := by
    rw [Tables.checkTypeId]
    split <;> simp [*]
  unfold checkMethod
  simp only [check_bind_eq_ok, forM_eq_ok, checkTypeSig_eq_ok]
  rw [owner]
  cases d.body with
  | none =>
    constructor
    · rintro ⟨ho, result, params, name, -⟩
      refine ⟨⟨ho, result, params, name⟩, fun c hc => ?_⟩
      cases hc
    · rintro ⟨⟨ho, result, params, name⟩, -⟩
      exact ⟨ho, result, params, name, rfl⟩
  | some c =>
    constructor
    · rintro ⟨ho, result, params, name, h⟩
      refine ⟨⟨ho, result, params, name⟩, fun c' hc => ?_⟩
      cases hc
      exact checkBody_eq_ok.mp h
    · rintro ⟨⟨ho, result, params, name⟩, h⟩
      exact ⟨ho, result, params, name, checkBody_eq_ok.mpr (h c rfl)⟩

/-- A file is in order exactly if its types, its fields and its methods are. -/
theorem check_eq_ok :
    f.check = .ok () ↔ f.Lawful ∧ ∀ d ∈ f.methods,
      d.Declarable f.toTables ∧ ∀ c, d.body = some c → c.Known f.toTables ∧ c.Closed := by
  have records : f.records = f.types := Tables.records_of_unit f.toTables
  unfold check
  simp only [check_bind_eq_ok, forM_zipIdx_eq_ok, checkMethod_eq_ok, Array.getElem?_toList,
    ← records]
  constructor
  · rintro ⟨types, fields, methods⟩
    refine ⟨⟨types, fields⟩, fun d hd => ?_⟩
    obtain ⟨i, hi⟩ := Array.mem_iff_getElem?.mp hd
    exact methods i d hi
  · rintro ⟨⟨types, fields⟩, methods⟩
    exact ⟨types, fields, fun i d hd => methods d (Array.mem_of_getElem? hd)⟩

end ModuleFile

end Graft
