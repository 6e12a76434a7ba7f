import Graft.Proofs.Acceptance
import Graft.Proofs.Names

/-!
# Well-formed files

A file is well-formed if its names are valid and distinct where they have to be, its types are
nested in earlier types only, and everything it refers to exists: types, fields and methods in the
tables, labels in the body around them. Nothing here mentions a check. A file loads exactly if it
is well-formed.
-/

namespace Graft

variable {μ β : Type} {t : Tables μ β}

/-! ## What is asked of a record -/

/-- A type with valid names that is nested in an earlier type, or in none. -/
structure TypeDef.WellFormed (i : Nat) (d : TypeRecord) : Prop where
  space : IsNamespace d.space
  name : IsName d.name
  outer : ∀ id, d.outer = some id → id.index < i

/-- A field of an existing type, whose own type exists, with a valid name that no earlier field of
the same type has. -/
structure FieldDef.WellFormed (t : Tables μ β) (i : Nat) (d : FieldDef) : Prop where
  owner : d.owner.index < t.types.size
  type : t.Knows d.type
  name : IsName d.name
  fresh : ∀ j < i, ∀ e, t.fields[j]? = some e → e.owner = d.owner → e.name ≠ d.name

/-- A method of an existing type with a valid name, whose signature and body refer to what exists
and whose body has no label that leads out of it. -/
structure Method.WellFormed (t : Tables μ β) (d : Method FileBody) : Prop where
  owner : d.owner.index < t.types.size
  result : t.Knows d.signature.result
  params : ∀ p ∈ d.signature.params, t.Knows p.type
  name : IsName d.name
  known : ∀ c, d.body = some c → c.Known t
  closed : ∀ c, d.body = some c → c.Closed

/-- All records are in order, and no two types have the same qualified name. -/
structure ModuleFile.WellFormed (f : ModuleFile) : Prop where
  types : ∀ (i : Nat) (d : TypeRecord), f.types[i]? = some d → d.WellFormed i
  names : f.typeNames.toList.Nodup
  fields : ∀ (i : Nat) (d : FieldDef), f.fields[i]? = some d → d.WellFormed f.toTables i
  methods : ∀ d ∈ f.methods, d.WellFormed f.toTables

/-! ## Types and fields -/

namespace Tables

variable {i : Nat} {place : RecordPlace} {fault : Fault} {refused : Prop} [Decidable refused]

/-- A check that refuses comes last. -/
theorem refuse_last_eq_ok :
    (if refused then throw fault else pure () : Except Fault Unit) = .ok () ↔ ¬refused := by
  split
  · exact iff_of_false nofun (not_not_intro ‹refused›)
  · exact iff_of_true rfl ‹¬refused›

theorem checkTypeId_eq_ok {id : TypeId} :
    t.checkTypeId place id = .ok () ↔ id.index < t.types.size := by
  rw [checkTypeId]
  split <;> simp [*]

/-- A type passes if it is in order and no earlier type has its qualified name. -/
theorem checkType_eq_ok {names : Array String} {d : TypeRecord} :
    checkType names i d = .ok () ↔
      d.WellFormed i ∧ names.getD i "" ∉ names.extract 0 i := by
  unfold checkType
  rw [check_bind_eq_ok, check_bind_eq_ok, requireNamespace_eq_ok, requireName_eq_ok]
  have parts : d.WellFormed i ↔
      IsNamespace d.space ∧ IsName d.name ∧ ∀ id, d.outer = some id → id.index < i :=
    ⟨fun ⟨space, name, outer⟩ => ⟨space, name, outer⟩,
      fun ⟨space, name, outer⟩ => ⟨space, name, outer⟩⟩
  rw [parts, and_assoc, and_assoc]
  refine and_congr_right' (and_congr_right' ?_)
  cases d.outer with
  | none =>
    refine refuse_last_eq_ok.trans ?_
    rw [Array.contains_iff_mem]
    exact (and_iff_right nofun).symm
  | some outer =>
    refine refuse_eq_ok.trans ?_
    rw [refuse_last_eq_ok, Array.contains_iff_mem, Nat.not_le]
    simp only [Option.some.injEq, forall_eq']

/-- No name is among those before it. -/
theorem nodup_iff {names : Array String} :
    names.toList.Nodup ↔ ∀ i < names.size, names.getD i "" ∉ names.extract 0 i := by
  have among {i : Nat} (hi : i < names.size) :
      names.getD i "" ∈ names.extract 0 i ↔ ∃ j, ∃ hj : j < i, names[j] = names[i] := by
    rw [Array.getD_eq_getD_getElem?, Array.getElem?_eq_getElem hi, Option.getD_some,
      Array.mem_extract_iff_getElem]
    simp only [Nat.sub_zero, Nat.zero_add, Nat.min_eq_left hi.le]
  rw [List.Nodup, List.pairwise_iff_getElem]
  simp only [Array.length_toList, Array.getElem_toList]
  constructor
  · intro apart i hi h
    obtain ⟨j, hj, same⟩ := (among hi).mp h
    exact apart j i (hj.trans hi) hi hj same
  · intro apart j i _ hi hj same
    exact apart i hi ((among hi).mpr ⟨j, hj, same⟩)

end Tables

namespace ModuleFile

variable {f : ModuleFile} {i : Nat}

theorem checkField_eq_ok {d : FieldDef} :
    f.checkField i d = .ok () ↔ d.WellFormed f.toTables i := by
  have fresh : ((f.fields.extract 0 i).any fun e => e.owner = d.owner && e.name = d.name) = true ↔
      ∃ j < i, ∃ e, f.fields[j]? = some e ∧ e.owner = d.owner ∧ e.name = d.name := by
    simp only [Array.any_eq_true', Array.mem_extract_iff_getElem, Array.getElem?_eq_some_iff,
      Bool.and_eq_true, decide_eq_true_eq]
    constructor
    · rintro ⟨e, ⟨j, hj, rfl⟩, same⟩
      rw [Nat.sub_zero, Nat.lt_min] at hj
      simp only [Nat.zero_add] at same
      exact ⟨j, hj.1, _, ⟨hj.2, rfl⟩, same⟩
    · rintro ⟨j, hj, e, ⟨inside, rfl⟩, same⟩
      refine ⟨_, ⟨j, Nat.lt_min.mpr ⟨by omega, inside⟩, rfl⟩, ?_⟩
      simpa only [Nat.zero_add] using same
  unfold Tables.checkField
  rw [check_bind_eq_ok, check_bind_eq_ok, check_bind_eq_ok, Tables.checkTypeId_eq_ok,
    checkTypeSig_eq_ok, Tables.requireName_eq_ok, Tables.refuse_last_eq_ok, fresh]
  push Not
  exact ⟨fun ⟨owner, type, name, fresh⟩ => ⟨owner, type, name, fresh⟩,
      fun ⟨owner, type, name, fresh⟩ => ⟨owner, type, name, fresh⟩⟩

theorem lawful_iff : f.Lawful ↔
    (∀ (i : Nat) (d : TypeRecord), f.types[i]? = some d → d.WellFormed i) ∧
      f.typeNames.toList.Nodup ∧
      ∀ (i : Nat) (d : FieldDef), f.fields[i]? = some d → d.WellFormed f.toTables i := by
  have size : f.typeNames.size = f.types.size := Array.size_ofFn
  rw [Tables.nodup_iff, size, ← Tables.records_of_unit f.toTables]
  constructor
  · rintro ⟨types, fields⟩
    refine ⟨fun i d hd => (Tables.checkType_eq_ok.mp (types i d hd)).1, fun i hi => ?_,
      fun i d hd => checkField_eq_ok.mp (fields i d hd)⟩
    exact (Tables.checkType_eq_ok.mp (types i _ (Array.getElem?_eq_getElem hi))).2
  · rintro ⟨types, names, fields⟩
    refine ⟨fun i d hd => Tables.checkType_eq_ok.mpr ⟨types i d hd, names i ?_⟩,
      fun i d hd => checkField_eq_ok.mpr (fields i d hd)⟩
    exact (Array.getElem?_eq_some_iff.mp hd).1

/-! ## Methods -/

theorem wellFormed_method_iff {d : Method FileBody} : d.WellFormed f.toTables ↔
    d.Declarable f.toTables ∧ ∀ c, d.body = some c → c.Known f.toTables ∧ c.Closed := by
  constructor
  · rintro ⟨owner, result, params, name, known, closed⟩
    exact ⟨⟨owner, result, params, Tables.requireName_eq_ok.mpr name⟩,
      fun c hc => ⟨known c hc, closed c hc⟩⟩
  · rintro ⟨⟨owner, result, params, name⟩, body⟩
    exact ⟨owner, result, params, Tables.requireName_eq_ok.mp name, fun c hc => (body c hc).1,
      fun c hc => (body c hc).2⟩

/-! ## Files -/

theorem check_eq_ok_iff_wellFormed : f.check = .ok () ↔ f.WellFormed := by
  rw [check_eq_ok, lawful_iff]
  constructor
  · rintro ⟨⟨types, names, fields⟩, methods⟩
    exact ⟨types, names, fields, fun d hd => wellFormed_method_iff.mpr (methods d hd)⟩
  · rintro ⟨types, names, fields, methods⟩
    exact ⟨⟨types, names, fields⟩, fun d hd => wellFormed_method_iff.mp (methods d hd)⟩

/-- The types of the module that is built from a file list what the records of the file name. -/
theorem coherent_build (h : f.check = .ok ()) : f.build.Coherent := by
  have wellFormed := check_eq_ok_iff_wellFormed.mp h
  have owner : ∀ d ∈ (placeMethods f.methods).1, d.owner.index < f.types.size := by
    intro d hd
    obtain ⟨i, hi⟩ := Array.mem_iff_getElem?.mp hd
    rw [← Placement.methods_build, (Placement.placed_build f).method, Array.getElem?_toList] at hi
    obtain ⟨e, he, rfl⟩ := Option.map_eq_some_iff.mp hi
    exact (wellFormed.methods e (Array.mem_of_getElem? he)).owner
  refine (Tables.coherent_empty f.name).enterAll ?_ ?_ ?_
  · intro i d o hd outer
    exact ((wellFormed.types i d hd).outer o outer).trans_eq (Nat.zero_add i).symm
  · intro d hd
    obtain ⟨i, hi⟩ := Array.mem_iff_getElem?.mp hd
    exact (wellFormed.fields i d hi).owner.trans_eq (Nat.zero_add _).symm
  · intro d hd
    exact (owner d hd).trans_eq (Nat.zero_add _).symm

theorem exists_load_iff : (∃ m, f.load = .ok m) ↔ f.check = .ok () :=
  ⟨fun ⟨_, h⟩ => (load_eq_ok.mp h).1, fun h => ⟨f.build, load_eq_ok.mpr ⟨h, rfl⟩⟩⟩

/-- Loading accepts the well-formed files and no others. -/
theorem loads_iff_wellFormed (f : ModuleFile) : (∃ m, f.load = .ok m) ↔ f.WellFormed :=
  exists_load_iff.trans check_eq_ok_iff_wellFormed

end ModuleFile

end Graft
