import Graft.Module.Load
import Graft.Proofs.Slots
import Mathlib.Data.List.Basic

/-!
# What types list

A module lists with each type what the type contains, and each method, field and nested type names
the type that it belongs to. Tables are coherent if the two agree: what is listed with a type are
the entries that name it, in table order, and none of them names a type that is not there. Loading
and declaring enter one entry at a time and list it with its owner, which keeps tables coherent. So
the lists of a loaded module are those that the records of its file ask for.
-/

namespace Graft

variable {μ μ' β β' : Type}

/-- Entries are changed in what is not looked at. -/
theorem map_modify_of_eq {α γ : Type} {xs : Array α} {n : Nat} {f : α → α} {g : α → γ}
    (same : ∀ x, g (f x) = g x) : (xs.modify n f).map g = xs.map g := by
  refine Array.ext_getElem? fun i => ?_
  rw [Array.getElem?_map, Array.getElem?_map, Array.getElem?_modify]
  split
  · rw [Option.map_map]
    exact congrArg (fun g => xs[i]?.map g) (funext same)
  · rfl

/-- What holds of all entries and outlasts a change holds after a change of one entry. -/
theorem forall_mem_modify {α : Type} {P : α → Prop} {xs : Array α} {n : Nat} {f : α → α}
    (all : ∀ x ∈ xs, P x) (step : ∀ x, P x → P (f x)) : ∀ x ∈ xs.modify n f, P x := by
  intro x hx
  obtain ⟨i, hi⟩ := Array.mem_iff_getElem?.mp hx
  rw [Array.getElem?_modify] at hi
  split at hi
  · obtain ⟨y, hy, rfl⟩ := Option.map_eq_some_iff.mp hi
    exact step y (all y (Array.mem_of_getElem? hy))
  · exact all x (Array.mem_of_getElem? hi)

namespace Tables

/-! ## Types without their members -/

section

variable {t : Tables μ β}

@[simp] theorem size_records : t.records.size = t.types.size := Array.size_map

theorem getElem?_records (i : Nat) : t.records[i]? = t.types[i]?.map TypeDef.record :=
  Array.getElem?_map

theorem records_of_unit (t : Tables Unit β) : t.records = t.types := Array.map_id' _

/-- A type is there if its record is. -/
theorem map_record_type? (id : TypeId) : (t.type? id).map TypeDef.record = t.records[id.index]? :=
  (getElem?_records _).symm

end

/-! ## Two accounts of what a type contains -/

/-- The places of the entries that belong to the type with the number, if these are their owners. -/
def places (owners : List (Option TypeId)) (j : Nat) : List Nat :=
  (owners.zipIdx.filter fun p => p.1.any (·.index = j)).map Prod.snd

theorem places_concat {owners : List (Option TypeId)} {o : Option TypeId} {j : Nat} :
    places (owners ++ [o]) j =
      places owners j ++ if o.any (·.index = j) then [owners.length] else [] := by
  rw [places, List.zipIdx_append, List.filter_append, List.map_append, ← places]
  congr 1
  cases h : o.any (·.index = j) <;> simp [h]

theorem places_eq_filter {owners : List (Option TypeId)} {j : Nat} :
    places owners j = (List.range owners.length).filter fun i =>
      (owners[i]?.join).any (·.index = j) := by
  induction owners using List.reverseRecOn with
  | nil => rfl
  | append_singleton owners o ih =>
    rw [places_concat, ih, List.length_append, List.length_singleton, List.range_succ,
      List.filter_append]
    congr 1
    · refine List.filter_congr fun i hi => ?_
      rw [List.getElem?_append_left (List.mem_range.mp hi)]
    · simp [List.filter_singleton]

/-- The entries of a table that belong to a type, in the order of the table. -/
theorem map_places {α ι : Type} (entries : Array α) (owner? : α → Option TypeId)
    (ofIndex : Nat → ι) (p : ι → Bool) {owner : TypeId}
    (spec : ∀ i d, entries[i]? = some d → p (ofIndex i) = decide (owner? d = some owner)) :
    (places (entries.toList.map owner?) owner.index).map ofIndex =
      ((List.range entries.size).map ofIndex).filter p := by
  rw [places_eq_filter, List.length_map, Array.length_toList, List.filter_map]
  refine congrArg (List.map ofIndex) (List.filter_congr fun i hi => ?_)
  obtain ⟨d, hd⟩ : ∃ d, entries[i]? = some d :=
    ⟨_, Array.getElem?_eq_getElem (List.mem_range.mp hi)⟩
  rw [List.getElem?_map, Array.getElem?_toList, hd, Function.comp, spec i d hd]
  show (owner? d).any (·.index = owner.index) = _
  cases owner? d with
  | none => simp
  | some o => simp [TypeId.index_inj]

/-- What the entries say that the type with the number contains. -/
def declared (t : Tables μ β) (j : Nat) : Members where
  methods := (places (t.methods.toList.map fun d => some d.owner) j).map .ofIndex
  fields := (places (t.fields.toList.map fun d => some d.owner) j).map .ofIndex
  nested := (places (t.records.toList.map TypeDef.outer) j).map .ofIndex

/-- What is listed with the type with the number. -/
def listed (t : Tables Members β) (j : Nat) : Members := t.types[j]?.elim .none TypeDef.members

/-- Each type lists the entries that name it, and no entry names a type that is not there. -/
def Coherent (t : Tables Members β) : Prop := ∀ j, t.listed j = t.declared j

theorem declared_congr {t : Tables μ β} {t' : Tables μ' β'} (records : t'.records = t.records)
    (fields : t'.fields = t.fields)
    (methods : t'.methods.map Method.owner = t.methods.map Method.owner) :
    t'.declared = t.declared := by
  have owners : t'.methods.toList.map (fun d => some d.owner) =
      t.methods.toList.map fun d => some d.owner := by
    simpa [Function.comp_def] using congrArg (fun owners => owners.toList.map some) methods
  funext j
  simp only [declared, records, fields, owners]

/-! ## New entries -/

section

variable {t : Tables Members β} {owner : TypeId} {add : Members → Members} {d : TypeRecord}
  {f : FieldDef} {m : Method β} {j : Nat}

@[simp] theorem size_types_enlist : (t.enlist owner add).types.size = t.types.size :=
  Array.size_modify

@[simp] theorem records_enlist : (t.enlist owner add).records = t.records := by
  have same : ∀ d : TypeDef Members, { d with members := add d.members }.record = d.record :=
    fun _ => rfl
  exact map_modify_of_eq same

theorem listed_enlist (there : owner.index < t.types.size) :
    (t.enlist owner add).listed j =
      if owner.index = j then add (t.listed j) else t.listed j := by
  rw [listed, enlist, listed, Array.getElem?_modify]
  split
  · rename_i same
    rw [← same, Array.getElem?_eq_getElem there]
    rfl
  · rfl

/-! ### Types -/

@[simp] theorem records_enlistNested (outer : Option TypeId) :
    (t.enlistNested outer).records = t.records := by
  cases outer with
  | none => rfl
  | some o => exact records_enlist

@[simp] theorem fields_enterType : (t.enterType d).fields = t.fields := by
  rw [enterType]
  cases d.outer <;> rfl

@[simp] theorem methods_enterType : (t.enterType d).methods = t.methods := by
  rw [enterType]
  cases d.outer <;> rfl

@[simp] theorem name_enterType : (t.enterType d).name = t.name := by
  rw [enterType]
  cases d.outer <;> rfl

@[simp] theorem records_enterType : (t.enterType d).records = t.records.push d := by
  have old : (t.enlistNested d.outer).records = t.records := records_enlistNested d.outer
  rw [← old]
  exact Array.map_push

@[simp] theorem size_types_enterType : (t.enterType d).types.size = t.types.size + 1 := by
  rw [← size_records, records_enterType, Array.size_push, size_records]

/-- A type that contains nothing is listed with none. -/
theorem listed_of_push {t' : Tables Members β} {d : TypeDef Members}
    (types : t'.types = t.types.push d) (blank : d.members = .none) :
    t'.listed j = t.listed j := by
  rw [listed, listed, types, Array.getElem?_push]
  split
  · rename_i last
    rw [last, Array.getElem?_eq_none le_rfl, Option.elim_some, Option.elim_none, blank]
  · rfl

theorem listed_enterType (around : ∀ o, d.outer = some o → o.index < t.types.size) :
    (t.enterType d).listed j = if d.outer.any (·.index = j) then
      (t.listed j).withNested (.ofIndex t.types.size) else t.listed j := by
  cases outer : d.outer with
  | none =>
    have entered : (t.enterType d).types = t.types.push { d with members := .none } := by
      rw [enterType, outer, enlistNested]
    rw [listed_of_push entered rfl, Option.any_none, if_neg Bool.false_ne_true]
  | some o =>
    have entered : (t.enterType d).types =
        (t.enlist o (.withNested (.ofIndex t.types.size))).types.push
          { d with members := .none } := by
      rw [enterType, outer, enlistNested]
    rw [listed_of_push entered rfl, listed_enlist (around o outer)]
    simp

theorem declared_enterType : (t.enterType d).declared j = if d.outer.any (·.index = j) then
    (t.declared j).withNested (.ofIndex t.types.size) else t.declared j := by
  simp only [declared, records_enterType, fields_enterType, methods_enterType, Array.toList_push,
    List.map_append, List.map_singleton, places_concat]
  split <;> simp [Members.withNested]

/-- A new type is listed with the type around it. -/
theorem Coherent.enterType (h : t.Coherent)
    (around : ∀ o, d.outer = some o → o.index < t.types.size) : (t.enterType d).Coherent := by
  intro j
  rw [listed_enterType around, declared_enterType, h j]

/-! ### Fields and methods -/

@[simp] theorem records_enterField : (t.enterField f).records = t.records := records_enlist

@[simp] theorem size_types_enterField : (t.enterField f).types.size = t.types.size :=
  size_types_enlist

@[simp] theorem fields_enterField : (t.enterField f).fields = t.fields.push f := rfl

@[simp] theorem methods_enterField : (t.enterField f).methods = t.methods := rfl

@[simp] theorem name_enterField : (t.enterField f).name = t.name := rfl

theorem declared_enterField : (t.enterField f).declared j = if f.owner.index = j then
    (t.declared j).withField (.ofIndex t.fields.size) else t.declared j := by
  simp only [declared, records_enterField, fields_enterField, methods_enterField,
    Array.toList_push, List.map_append, List.map_singleton, places_concat, Option.any_some,
    decide_eq_true_eq]
  split <;> simp [Members.withField]

/-- A new field is listed with its type. -/
theorem Coherent.enterField (h : t.Coherent) (owner : f.owner.index < t.types.size) :
    (t.enterField f).Coherent := by
  intro j
  have listed : (t.enterField f).listed j = _ := listed_enlist owner
  rw [listed, declared_enterField, h j]

@[simp] theorem records_enterMethod : (t.enterMethod m).records = t.records := records_enlist

@[simp] theorem size_types_enterMethod : (t.enterMethod m).types.size = t.types.size :=
  size_types_enlist

@[simp] theorem fields_enterMethod : (t.enterMethod m).fields = t.fields := rfl

@[simp] theorem methods_enterMethod : (t.enterMethod m).methods = t.methods.push m := rfl

@[simp] theorem name_enterMethod : (t.enterMethod m).name = t.name := rfl

theorem declared_enterMethod : (t.enterMethod m).declared j = if m.owner.index = j then
    (t.declared j).withMethod (.ofIndex t.methods.size) else t.declared j := by
  simp only [declared, records_enterMethod, fields_enterMethod, methods_enterMethod,
    Array.toList_push, List.map_append, List.map_singleton, places_concat, Option.any_some,
    decide_eq_true_eq]
  split <;> simp [Members.withMethod]

/-- A new method is listed with its type. -/
theorem Coherent.enterMethod (h : t.Coherent) (owner : m.owner.index < t.types.size) :
    (t.enterMethod m).Coherent := by
  intro j
  have listed : (t.enterMethod m).listed j = _ := listed_enlist owner
  rw [listed, declared_enterMethod, h j]

/-- What a type lists once it has got a method. -/
theorem membersOf_enterMethod (owner : m.owner.index < t.types.size) :
    (t.enterMethod m).membersOf m.owner =
      (t.membersOf m.owner).withMethod (.ofIndex t.methods.size) := by
  have listed : (t.enterMethod m).listed m.owner.index = _ := listed_enlist owner
  rw [if_pos rfl] at listed
  exact listed

theorem records_empty (name : String) : (empty name : Tables Members β).records = #[] :=
  Array.map_empty

theorem coherent_empty (name : String) : (empty name : Tables Members β).Coherent := by
  intro j
  simp [listed, declared, empty, records, places, Members.none]

end

/-! ## What follows for coherent tables -/

section

variable {t : Tables μ β}

theorem mem_typeIds_of_type? {id : TypeId} {d : TypeDef μ} (hd : t.type? id = some d) :
    id ∈ t.typeIds :=
  List.mem_map.mpr ⟨id.index, List.mem_range.mpr (Array.getElem?_eq_some_iff.mp hd).1,
    TypeId.ofIndex_index id⟩

theorem mem_fieldIds_of_field? {f : FieldId} {d : FieldDef} (hd : t.field? f = some d) :
    f ∈ t.fieldIds :=
  List.mem_map.mpr ⟨f.index, List.mem_range.mpr (Array.getElem?_eq_some_iff.mp hd).1,
    FieldId.ofIndex_index f⟩

theorem mem_methodIds_of_method? {k : MethodId} {d : Method β} (hd : t.method? k = some d) :
    k ∈ t.methodIds :=
  List.mem_map.mpr ⟨k.index, List.mem_range.mpr (Array.getElem?_eq_some_iff.mp hd).1,
    MethodId.ofIndex_index k⟩

end

namespace Coherent

variable {t : Tables Members β} {t' : Tables Members β'}

/-- The lists of coherent tables are up to the entries. -/
theorem types_eq (h : t.Coherent) (h' : t'.Coherent) (records : t'.records = t.records)
    (fields : t'.fields = t.fields)
    (methods : t'.methods.map Method.owner = t.methods.map Method.owner) :
    t'.types = t.types := by
  refine Array.ext_getElem? fun j => ?_
  have record := congrArg (·[j]?) records
  have members : t'.listed j = t.listed j := by
    rw [h j, h' j, declared_congr records fields methods]
  simp only [getElem?_records] at record
  rw [listed, listed] at members
  cases hd : t.types[j]? with
  | none =>
    rw [hd] at record
    exact Option.map_eq_none_iff.mp record
  | some d =>
    rw [hd] at record members
    obtain ⟨d', hd', same⟩ := Option.map_eq_some_iff.mp record
    rw [hd'] at members
    rw [hd']
    cases d
    cases d'
    cases same
    exact congrArg (fun members => some (TypeDef.mk _ _ _ _ members)) members

theorem of_eq (h : t.Coherent) (types : t'.types = t.types) (fields : t'.fields = t.fields)
    (methods : t'.methods.map Method.owner = t.methods.map Method.owner) : t'.Coherent := by
  intro j
  have records : t'.records = t.records := by rw [Tables.records, types, Tables.records]
  rw [declared_congr records fields methods, ← h j, listed, types, listed]

theorem membersOf_eq (h : t.Coherent) (owner : TypeId) :
    t.membersOf owner = t.declared owner.index := h owner.index

/-- A type lists the types that name it, in the order of the table. -/
theorem nestedOf_eq_filter (h : t.Coherent) (room : t.types.size ≤ Arena.capacity)
    (outer : TypeId) :
    t.nestedOf outer = t.typeIds.filter fun id => (t.type? id).any (·.outer = some outer) := by
  rw [nestedOf, h.membersOf_eq, declared, typeIds, ← size_records]
  refine map_places t.records TypeDef.outer TypeId.ofIndex _ fun i d hd => ?_
  rw [getElem?_records] at hd
  obtain ⟨e, he, rfl⟩ := Option.map_eq_some_iff.mp hd
  have inside := (Array.getElem?_eq_some_iff.mp he).1
  rw [type?, TypeId.index_ofIndex (inside.trans_le room), he]
  rfl

/-- And the fields that do. -/
theorem fieldsOf_eq_filter (h : t.Coherent) (room : t.fields.size ≤ Arena.capacity)
    (owner : TypeId) :
    t.fieldsOf owner = t.fieldIds.filter fun f => (t.field? f).any (·.owner = owner) := by
  rw [fieldsOf, h.membersOf_eq, declared, fieldIds]
  refine map_places t.fields (fun d => some d.owner) FieldId.ofIndex _ fun i d hd => ?_
  have inside := (Array.getElem?_eq_some_iff.mp hd).1
  rw [field?, FieldId.index_ofIndex (inside.trans_le room), hd]
  simp

/-- And the methods. -/
theorem methodsOf_eq_filter (h : t.Coherent) (room : t.methods.size ≤ Arena.capacity)
    (owner : TypeId) :
    t.methodsOf owner = t.methodIds.filter fun k => (t.method? k).any (·.owner = owner) := by
  rw [methodsOf, h.membersOf_eq, declared, methodIds]
  refine map_places t.methods (fun d => some d.owner) MethodId.ofIndex _ fun i d hd => ?_
  have inside := (Array.getElem?_eq_some_iff.mp hd).1
  rw [method?, MethodId.index_ofIndex (inside.trans_le room), hd]
  simp

theorem mem_nestedOf (h : t.Coherent) (room : t.types.size ≤ Arena.capacity) {id outer : TypeId} :
    id ∈ t.nestedOf outer ↔ ∃ d, t.type? id = some d ∧ d.outer = some outer := by
  simp only [h.nestedOf_eq_filter room, List.mem_filter, Option.any_eq_true, decide_eq_true_eq]
  exact and_iff_right_of_imp fun ⟨d, hd, _⟩ => mem_typeIds_of_type? hd

theorem mem_fieldsOf (h : t.Coherent) (room : t.fields.size ≤ Arena.capacity) {owner : TypeId}
    {f : FieldId} : f ∈ t.fieldsOf owner ↔ ∃ d, t.field? f = some d ∧ d.owner = owner := by
  simp only [h.fieldsOf_eq_filter room, List.mem_filter, Option.any_eq_true, decide_eq_true_eq]
  exact and_iff_right_of_imp fun ⟨d, hd, _⟩ => mem_fieldIds_of_field? hd

theorem mem_methodsOf (h : t.Coherent) (room : t.methods.size ≤ Arena.capacity) {owner : TypeId}
    {k : MethodId} : k ∈ t.methodsOf owner ↔ ∃ d, t.method? k = some d ∧ d.owner = owner := by
  simp only [h.methodsOf_eq_filter room, List.mem_filter, Option.any_eq_true, decide_eq_true_eq]
  exact and_iff_right_of_imp fun ⟨d, hd, _⟩ => mem_methodIds_of_method? hd

/-- No method is listed twice, so the only one with a name is found, and nothing if there are more
or none. -/
theorem findUniqueMethod_eq_ok (h : t.Coherent) (room : t.methods.size ≤ Arena.capacity)
    {owner : TypeId} {name : String} {k : MethodId} :
    t.findUniqueMethod owner name = .ok k ↔
      ∀ j, (∃ d, t.method? j = some d ∧ d.owner = owner ∧ d.name = name) ↔ j = k := by
  have single : t.findUniqueMethod owner name = .ok k ↔ t.findMethods owner name = [k] := by
    rw [findUniqueMethod]
    split
    · rename_i found
      simp [found]
    · rename_i several
      exact iff_of_false nofun (several k)
  have distinct : (t.findMethods owner name).Nodup := by
    rw [findMethods, h.methodsOf_eq_filter room]
    refine List.Nodup.filter _ (List.Nodup.filter _ ?_)
    refine List.Nodup.map_on (fun i hi j hj same => ?_) List.nodup_range
    have hi := (List.mem_range.mp hi).trans_le room
    have hj := (List.mem_range.mp hj).trans_le room
    rw [← MethodId.index_ofIndex hi, same, MethodId.index_ofIndex hj]
  rw [single, ← List.perm_singleton, List.perm_ext_iff_of_nodup distinct (List.nodup_singleton k)]
  refine forall_congr' fun j => iff_congr ?_ List.mem_singleton
  rw [findMethods, List.mem_filter, h.mem_methodsOf room, Option.any_eq_true]
  constructor
  · rintro ⟨⟨d, hd, member⟩, e, he, named⟩
    obtain rfl : d = e := Option.some.inj (hd.symm.trans he)
    exact ⟨d, hd, member, of_decide_eq_true named⟩
  · rintro ⟨d, hd, member, named⟩
    exact ⟨⟨d, hd, member⟩, d, hd, decide_eq_true named⟩

end Coherent

/-! ### Methods that are found -/

section

variable {t : Tables Members β} {owner : TypeId} {name : String} {k : MethodId} {d : Method β}

theorem mem_methodsOf_of_requireMethod (h : t.requireMethod owner name = .ok k) :
    k ∈ t.methodsOf owner := by
  rw [requireMethod] at h
  split at h
  · rename_i found
    cases h
    exact List.mem_of_mem_filter (List.mem_of_mem_head? found)
  · cases h

/-- Only a type that is there lists methods. -/
theorem index_lt_of_requireMethod (h : t.requireMethod owner name = .ok k) :
    owner.index < t.types.size := by
  have found := mem_methodsOf_of_requireMethod h
  rw [methodsOf, membersOf] at found
  cases there : t.type? owner with
  | none =>
    rw [there] at found
    exact absurd found List.not_mem_nil
  | some d => exact (Array.getElem?_eq_some_iff.mp there).1

/-- A method that was found belongs to the type in which it was looked for. -/
theorem Coherent.owner_of_requireMethod (h : t.Coherent) (room : t.methods.size ≤ Arena.capacity)
    (found : t.requireMethod owner name = .ok k) (hd : t.method? k = some d) : d.owner = owner := by
  obtain ⟨e, he, member⟩ := (h.mem_methodsOf room).mp (mem_methodsOf_of_requireMethod found)
  obtain rfl : d = e := Option.some.inj (hd.symm.trans he)
  exact member

end

/-! ## Many entries -/

section

variable {t : Tables Members β} {types : Array TypeRecord} {fields : Array FieldDef}
  {methods : Array (Method β)}

/-- What only adds an entry to one table adds all entries in a fold. -/
theorem foldl_eq_append {σ α : Type} {step : σ → α → σ} {table : σ → Array α}
    (adds : ∀ s a, table (step s a) = (table s).push a) (s : σ) (as : Array α) :
    table (as.foldl step s) = table s ++ as := by
  obtain ⟨as⟩ := as
  rw [List.foldl_toArray]
  induction as generalizing s with
  | nil => simp
  | cons a as ih => simp [ih, adds]

/-- What leaves a part alone does so in a fold. -/
theorem foldl_eq_self {σ α γ : Type} {step : σ → α → σ} {part : σ → γ}
    (same : ∀ s a, part (step s a) = part s) (s : σ) (as : Array α) :
    part (as.foldl step s) = part s := by
  obtain ⟨as⟩ := as
  rw [List.foldl_toArray]
  induction as generalizing s with
  | nil => rfl
  | cons a as ih => exact (ih _).trans (same s a)

theorem name_enterAll : (t.enterAll types fields methods).name = t.name := by
  rw [enterAll, foldl_eq_self fun t m => name_enterMethod,
    foldl_eq_self fun t d => name_enterField, foldl_eq_self fun t d => name_enterType]

theorem records_enterAll : (t.enterAll types fields methods).records = t.records ++ types := by
  rw [enterAll, foldl_eq_self fun t m => records_enterMethod,
    foldl_eq_self fun t d => records_enterField, foldl_eq_append fun t d => records_enterType]

theorem fields_enterAll : (t.enterAll types fields methods).fields = t.fields ++ fields := by
  rw [enterAll, foldl_eq_self fun t m => fields_enterMethod,
    foldl_eq_append fun t d => fields_enterField, foldl_eq_self fun t d => fields_enterType]

theorem methods_enterAll : (t.enterAll types fields methods).methods = t.methods ++ methods := by
  rw [enterAll, foldl_eq_append fun t m => methods_enterMethod,
    foldl_eq_self fun t d => methods_enterField, foldl_eq_self fun t d => methods_enterType]

/-- Tables stay coherent if types are nested in earlier ones and members belong to types that are
there. -/
theorem Coherent.enterAll (h : t.Coherent)
    (around : ∀ (i : Nat) d o, types[i]? = some d → d.outer = some o → o.index < t.types.size + i)
    (ownFields : ∀ d ∈ fields, d.owner.index < t.types.size + types.size)
    (ownMethods : ∀ d ∈ methods, d.owner.index < t.types.size + types.size) :
    (t.enterAll types fields methods).Coherent := by
  have afterTypes : (types.foldl Tables.enterType t).Coherent ∧
      (types.foldl Tables.enterType t).types.size = t.types.size + types.size := by
    refine Array.foldl_induction
      (fun i (t' : Tables Members β) => t'.Coherent ∧ t'.types.size = t.types.size + i) ⟨h, rfl⟩ ?_
    rintro i t' ⟨coherent, size⟩
    refine ⟨coherent.enterType fun o outer => ?_, by rw [size_types_enterType, size, Nat.add_assoc]⟩
    rw [size]
    exact around i _ o (Array.getElem?_eq_getElem i.isLt) outer
  have afterFields : (fields.foldl Tables.enterField (types.foldl Tables.enterType t)).Coherent ∧
      (fields.foldl Tables.enterField (types.foldl Tables.enterType t)).types.size =
        t.types.size + types.size := by
    refine Array.foldl_induction
      (fun _ (t' : Tables Members β) => t'.Coherent ∧ t'.types.size = t.types.size + types.size)
      afterTypes ?_
    rintro i t' ⟨coherent, size⟩
    refine ⟨coherent.enterField ?_, size_types_enterField.trans size⟩
    rw [size]
    exact ownFields _ (Array.getElem_mem i.isLt)
  refine (Array.foldl_induction
    (fun _ (t' : Tables Members β) => t'.Coherent ∧ t'.types.size = t.types.size + types.size)
    afterFields ?_).1
  rintro i t' ⟨coherent, size⟩
  refine ⟨coherent.enterMethod ?_, size_types_enterMethod.trans size⟩
  rw [size]
  exact ownMethods _ (Array.getElem_mem i.isLt)

end

end Tables

end Graft
