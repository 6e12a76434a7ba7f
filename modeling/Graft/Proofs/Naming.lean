import Graft.Plan.Operation
import Graft.Proofs.Acceptance
import Graft.Proofs.Frame

/-!
# What names and signatures go by

Looking up names, and asking what a call takes and gives, goes by what the tables declare. Bodies
have nothing to do with it, nor has access. The outline of tables is what remains without them:
modules with the same outline find the same entries and miss the same names.
-/

namespace Graft

variable {β β' : Type}

/-! ## Outlines -/

namespace MethodFlags

theorem or_and_distrib (x y z : UInt16) : (x ||| y) &&& z = (x &&& z) ||| (y &&& z) :=
  UInt16.toBitVec_inj.mp BitVec.and_or_distrib_right

/-- Bits that have nothing to do with access stay as they are. -/
theorem makePublic_and {f : MethodFlags} {bits : UInt16} (apart : visible &&& bits = 0)
    (kept : ~~~(hidden ||| inherited) &&& bits = bits) :
    f.makePublic.bits &&& bits = f.bits &&& bits :=
  calc (f.bits &&& ~~~(hidden ||| inherited) ||| visible) &&& bits
      = f.bits &&& (~~~(hidden ||| inherited) &&& bits) ||| visible &&& bits := by
        rw [or_and_distrib, UInt16.and_assoc]
    _ = f.bits &&& bits := by rw [apart, kept, UInt16.or_zero]

theorem has_makePublic {f : MethodFlags} {bit : UInt16} (apart : visible &&& bit = 0)
    (kept : ~~~(hidden ||| inherited) &&& bit = bit) : f.makePublic.has bit = f.has bit := by
  rw [has, makePublic_and apart kept, has]

/-- To make public what is public changes nothing. -/
theorem makePublic_makePublic (f : MethodFlags) : f.makePublic.makePublic = f.makePublic := by
  have kept : visible &&& ~~~(hidden ||| inherited) = visible := by decide
  show mk (f.makePublic.bits &&& ~~~(hidden ||| inherited) ||| visible) = f.makePublic
  rw [makePublic, or_and_distrib, kept, UInt16.and_assoc, UInt16.and_self, UInt16.or_assoc,
    UInt16.or_self]

end MethodFlags

/-- What a method is apart from its body and from who may call it: everyone may. -/
def Method.outline (d : Method β) : Method Empty := { d.head with flags := d.flags.makePublic }

namespace Method

variable {d : Method β} {d' : Method β'}

@[simp] theorem isStatic_outline : d.outline.isStatic = d.isStatic :=
  MethodFlags.has_makePublic (by decide) (by decide)

@[simp] theorem isConstructor_outline : d.outline.isConstructor = d.isConstructor := by
  rw [isConstructor, isConstructor, isStatic_outline]
  rfl

@[simp] theorem argumentCount_outline : d.outline.argumentCount = d.argumentCount := by
  rw [argumentCount, argumentCount, isStatic_outline]
  rfl

theorem owner_of_outline (h : d'.outline = d.outline) : d'.owner = d.owner :=
  congrArg (fun e : Method Empty => e.owner) h

theorem signature_of_outline (h : d'.outline = d.outline) : d'.signature = d.signature :=
  congrArg (fun e : Method Empty => e.signature) h

theorem isStatic_of_outline (h : d'.outline = d.outline) : d'.isStatic = d.isStatic := by
  rw [← isStatic_outline, h, isStatic_outline]

theorem isConstructor_of_outline (h : d'.outline = d.outline) :
    d'.isConstructor = d.isConstructor := by
  rw [← isConstructor_outline, h, isConstructor_outline]

end Method

/-- What tables declare apart from who may call the methods. -/
def Tables.outline (t : Tables Members β) : Tables Members Empty where
  name := t.name
  types := t.types
  fields := t.fields
  methods := t.methods.map Method.outline

namespace Tables

variable (t : Tables Members β) {t' : Tables Members β'} {owner : TypeId} {k : MethodId}

theorem outline_declarations : t.declarations.outline = t.outline := by
  have methods : (t.methods.map Method.head).map Method.outline = t.methods.map Method.outline :=
    Array.map_map
  simp only [outline, declarations, methods]

/-- Tables that declare the same have the same outline. -/
theorem outline_of_declarations {t : Tables Members β} (same : t'.declarations = t.declarations) :
    t'.outline = t.outline := by
  rw [← outline_declarations, same, outline_declarations]

/-! ## Entries and names -/

theorem method?_outline : t.outline.method? k = (t.method? k).map Method.outline :=
  Array.getElem?_map

@[simp] theorem typeName_outline (id : TypeId) :
    t.outline.typeName id = t.typeName id := by
  have records : t.outline.records = t.records := rfl
  exact typeName_congr records id

@[simp] theorem methodName_outline : t.outline.methodName k = t.methodName k := by
  rw [methodName, methodName, method?_outline]
  cases t.method? k with
  | none => rfl
  | some d => exact congrArg (memberName · d.name) (t.typeName_outline d.owner)

@[simp] theorem fieldName_outline (id : FieldId) :
    t.outline.fieldName id = t.fieldName id := by
  have field : t.outline.field? id = t.field? id := rfl
  rw [fieldName, fieldName, field]
  cases t.field? id with
  | none => rfl
  | some d => exact congrArg (memberName · d.name) (t.typeName_outline d.owner)

@[simp] theorem renderType_outline (s : TypeSig) :
    t.outline.renderType s = t.renderType s := by
  rw [renderType, renderType, funext t.typeName_outline]

theorem any_method?_outline {p : Method Empty → Bool} {q : Method β → Bool}
    (h : ∀ d, p d.outline = q d) : (t.outline.method? k).any p = (t.method? k).any q := by
  rw [method?_outline, Option.any_map]
  exact congrArg (fun q => (t.method? k).any q) (funext h)

@[simp] theorem methodsOf_outline : t.outline.methodsOf owner = t.methodsOf owner := rfl

@[simp] theorem findMethod_outline (name : String) :
    t.outline.findMethod owner name = t.findMethod owner name := by
  rw [findMethod, findMethod, findMethods, findMethods, methodsOf_outline]
  exact congrArg List.head?
    (List.filter_congr fun k _ => t.any_method?_outline fun _ => rfl)

@[simp] theorem findParameterlessConstructor_outline :
    t.outline.findParameterlessConstructor owner = t.findParameterlessConstructor owner := by
  rw [findParameterlessConstructor, findParameterlessConstructor, methodsOf_outline]
  exact congrArg (List.find? · (t.methodsOf owner))
    (funext fun k => t.any_method?_outline fun d => congrArg (· && _) d.isConstructor_outline)

@[simp] theorem requireType_outline (name : String) :
    t.outline.requireType name = t.requireType name := rfl

@[simp] theorem requireMethod_outline (name : String) :
    t.outline.requireMethod owner name = t.requireMethod owner name := by
  simp only [requireMethod, findMethod_outline, typeName_outline]

@[simp] theorem requireField_outline (name : String) :
    t.outline.requireField owner name = t.requireField owner name := by
  have field : t.outline.findField owner name = t.findField owner name := rfl
  simp only [requireField, field, typeName_outline]

@[simp] theorem requireConstructor_outline :
    t.outline.requireConstructor owner = t.requireConstructor owner := by
  simp only [requireConstructor, findParameterlessConstructor_outline, typeName_outline]

/-- Tables with the same outline have the same methods, but for bodies and access. -/
theorem method?_cases_of_outline {t : Tables Members β} (same : t'.outline = t.outline) :
    (t.method? k = none ∧ t'.method? k = none) ∨
      ∃ d d', t.method? k = some d ∧ t'.method? k = some d' ∧ d'.outline = d.outline := by
  have entries : (t'.method? k).map Method.outline = (t.method? k).map Method.outline := by
    rw [← method?_outline, same, method?_outline]
  cases hd : t.method? k with
  | none =>
    rw [hd, Option.map_none, Option.map_eq_none_iff] at entries
    exact .inl ⟨rfl, entries⟩
  | some d =>
    rw [hd, Option.map_some] at entries
    obtain ⟨d', hd', head⟩ := Option.map_eq_some_iff.mp entries
    exact .inr ⟨d, d', rfl, hd', head⟩

/-! ## Calls -/

theorem argumentCount_outline : t.outline.argumentCount k = t.argumentCount k := by
  rw [argumentCount, argumentCount, method?_outline]
  cases t.method? k with
  | none => rfl
  | some d => exact Method.argumentCount_outline

@[simp] theorem givesValue_outline : t.outline.givesValue k = t.givesValue k :=
  t.any_method?_outline fun _ => rfl

@[simp] theorem callEffect_outline {form : CallForm} :
    t.outline.callEffect form k = t.callEffect form k := by
  have arguments : (t.outline.method? k).elim 0 Method.argumentCount =
      (t.method? k).elim 0 Method.argumentCount := t.argumentCount_outline
  have params : ((t.outline.method? k).elim 0 fun d => d.signature.params.length) =
      (t.method? k).elim 0 fun d => d.signature.params.length := by
    rw [method?_outline]
    cases t.method? k <;> rfl
  cases form <;> simp only [callEffect, arguments, params, givesValue_outline]

@[simp] theorem stackEffect_outline {L : Type} {i : Instruction L} :
    t.outline.stackEffect k i = t.stackEffect k i :=
  stackEffect_congr (fun _ _ _ => t.callEffect_outline) t.givesValue_outline

/-- The outline of tables has as many entries as the tables. -/
theorem resolves_outline {L : Type} {i : Instruction L} :
    i.Resolves t.outline ↔ i.Resolves t := by
  have methods : t.outline.methods.size = t.methods.size := Array.size_map
  exact ⟨fun h => h.mono le_rfl methods.le le_rfl, fun h => h.mono le_rfl methods.ge le_rfl⟩

/-- So whether an instruction resolves depends on what is declared. -/
theorem resolves_of_declarations {L : Type} {t : Tables Members β} {i : Instruction L}
    (same : t'.declarations = t.declarations) : i.Resolves t' ↔ i.Resolves t := by
  rw [← resolves_outline, outline_of_declarations same, resolves_outline]

theorem checkOperands_outline {L : Type} {locals : Nat} {i : Instruction L} :
    t.outline.checkOperands k locals i = t.checkOperands k locals i := by
  have arguments : (t.outline.method? k).elim 0 Method.argumentCount =
      (t.method? k).elim 0 Method.argumentCount := t.argumentCount_outline
  have methods : t.outline.methods.size = t.methods.size := Array.size_map
  simp only [checkOperands, methodName_outline, arguments, methods]
  rfl

/-! ## Tables with the same outline -/

section

variable {t : Tables Members β} (same : t'.outline = t.outline)
include same

theorem methodName_of_outline : t'.methodName k = t.methodName k := by
  rw [← methodName_outline, same, methodName_outline]

theorem fieldName_of_outline (id : FieldId) : t'.fieldName id = t.fieldName id := by
  rw [← fieldName_outline, same, fieldName_outline]

theorem renderType_of_outline : t'.renderType = t.renderType :=
  funext fun s => by rw [← renderType_outline, same, renderType_outline]

theorem requireMethod_of_outline (name : String) :
    t'.requireMethod owner name = t.requireMethod owner name := by
  rw [← requireMethod_outline, same, requireMethod_outline]

theorem requireConstructor_of_outline :
    t'.requireConstructor owner = t.requireConstructor owner := by
  rw [← requireConstructor_outline, same, requireConstructor_outline]

theorem givesValue_of_outline : t'.givesValue k = t.givesValue k := by
  rw [← givesValue_outline, same, givesValue_outline]

theorem stackEffect_of_outline {L : Type} {i : Instruction L} :
    t'.stackEffect k i = t.stackEffect k i := by
  rw [← stackEffect_outline, same, stackEffect_outline]

end

end Tables

/-! ## Plans -/

namespace Literal

variable (t : Tables Members β) {t' : Tables Members β'}

@[simp] theorem type_outline (value : Literal TypeId) :
    value.type t.outline = value.type t := by
  cases value <;> rfl

@[simp] theorem push_outline (value : Literal TypeId) :
    value.push t.outline = value.push t := by
  cases value with
  | fresh id => simp only [push, Tables.requireConstructor_outline]
  | _ => rfl

@[simp] theorem resolve_outline (value : Literal String) :
    value.resolve t.outline = value.resolve t := by
  cases value <;> rfl

section

variable {t : Tables Members β} (same : t'.outline = t.outline)
include same

theorem type_of_outline (value : Literal TypeId) : value.type t' = value.type t := by
  rw [← type_outline, same, type_outline]

theorem push_of_outline (value : Literal TypeId) : value.push t' = value.push t := by
  rw [← push_outline, same, push_outline]

theorem resolve_of_outline (value : Literal String) : value.resolve t' = value.resolve t := by
  rw [← resolve_outline, same, resolve_outline]

end

end Literal

namespace Plan

variable (t : Tables Members β) {t' : Tables Members β'}

@[simp] theorem MethodRef.resolve_outline (r : MethodRef) :
    r.resolve t.outline = r.resolve t := by
  simp only [resolve, Tables.requireType_outline, Tables.requireMethod_outline]

@[simp] theorem PlanInstruction.resolve_outline (i : PlanInstruction) :
    i.resolve t.outline = i.resolve t := by
  cases i <;> simp only [resolve, MethodRef.resolve_outline, Tables.requireType_outline,
    Tables.requireConstructor_outline, Tables.requireField_outline]

section

variable {t : Tables Members β} (same : t'.outline = t.outline)
include same

theorem MethodRef.resolve_of_outline (r : MethodRef) : r.resolve t' = r.resolve t := by
  rw [← resolve_outline, same, resolve_outline]

theorem PlanInstruction.resolve_of_outline (i : PlanInstruction) :
    i.resolve t' = i.resolve t := by
  rw [← resolve_outline, same, resolve_outline]

end

end Plan

/-! ## Editing whole methods -/

namespace Module

variable {m m' : Module} {k callee : MethodId} (same : m'.outline = m.outline)
include same

theorem checkReturns_of_outline {value : Literal TypeId} :
    m'.checkReturns k value = m.checkReturns k value := by
  rw [checkReturns, checkReturns, Literal.type_of_outline same, Tables.methodName_of_outline same,
    Tables.renderType_of_outline same]
  rcases Tables.method?_cases_of_outline same (k := k) with
    ⟨none, none'⟩ | ⟨d, d', hd, hd', outline⟩
  · rw [none, none']
  · simp only [hd, hd', Option.elim_some, Method.signature_of_outline outline]

theorem checkInjectable_of_outline : m'.checkInjectable callee = m.checkInjectable callee := by
  rw [checkInjectable, checkInjectable, Tables.methodName_of_outline same]
  rcases Tables.method?_cases_of_outline same (k := callee) with
    ⟨none, none'⟩ | ⟨d, d', hd, hd', outline⟩
  · rw [none, none']
  · simp only [hd, hd', Option.any_some, Method.isConstructor_of_outline outline,
      Method.signature_of_outline outline]

theorem receiver?_of_outline : m'.receiver? callee = m.receiver? callee := by
  have types : m'.types = m.types := congrArg (fun t : Tables Members Empty => t.types) same
  rw [receiver?, receiver?]
  rcases Tables.method?_cases_of_outline same (k := callee) with
    ⟨none, none'⟩ | ⟨d, d', hd, hd', outline⟩
  · rw [none, none']
  · simp only [hd, hd', Method.isStatic_of_outline outline, Method.owner_of_outline outline,
      Tables.requireConstructor_of_outline same, Tables.type?, types]
    rfl

end Module

end Graft
