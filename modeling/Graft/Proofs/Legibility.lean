import Graft.Proofs.Batches
import Graft.Proofs.Lookups
import Graft.Proofs.Strictness
import Graft.Proofs.Upkeep

/-!
# Names stay legible

Whatever is done with a module that was loaded or made from nothing, types and fields are found by
their names and by no other text. A look-up walks the lists that stand with types, so this rests on
two things that everything done keeps in order: names stay valid and distinct, and each type lists
what names it.
-/

namespace Graft

/-! ## Plans -/

namespace Edit

variable {m : Module} {k template : MethodId} {owner : TypeId} {name : String}

theorem upholds_makePublic : (makePublic k).Upholds := .update fun _ h => h.setFlags

/-- The copy goes to a type that is there. -/
theorem upholds_cloneMethod (inside : owner.index < m.types.size) :
    (cloneMethod owner template name).MeetsAt .upkeep m := by
  refine (upholds_cloneSignature inside).bind fun k m₁ _ => ?_
  refine Meets.get_bind (fun d => ?_) m₁
  split
  · exact upholds_copyBody.discard
  · exact .pure ()

theorem upholds_part {e : Edit Unit} (part : Part m e) : e.MeetsAt .upkeep m := by
  cases part with
  | returnLiteral => exact (upholds_returnLiteral m).discard
  | makePublic => exact upholds_makePublic m
  | injectCall => exact (upholds_injectCall m).discard
  | removeRange => exact (upholds_removeRange m).discard
  | pad => exact (upholds_pad m).discard
  | cloneMethod found =>
    -- only a type that is there has a method to be found
    exact upholds_cloneMethod (Tables.index_lt_of_requireMethod found)
  | insertAt => exact (upholds_insertAt m).discard
  | replaceAt => exact (upholds_replaceAt m).discard
  | copyRange => exact (upholds_copyRange m).discard

theorem upholds_operation (o : Plan.Operation) : (operation o).Upholds :=
  fun m => (resolves_operation o m).meetsAt (fun _ => id) fun _ => upholds_part

end Edit

/-! ## Batches -/

namespace Batch

open Edit

theorem upholds_attempt {p : Patch} (h : p.edit.Upholds) : (attempt p).Upholds := by
  refine fun m => meetsAt_always.mpr fun hm => ?_
  rcases apply_attempt p m with ⟨d, ran, -, kept⟩ | ⟨fault, undone⟩
  · have done := meetsAt_always.mp (h m) hm
    rw [ran] at done
    rw [kept]
    exact done.withTouched []
  · rw [undone]
    exact hm

theorem upholds_runFrom {patches : List Patch} (h : ∀ p ∈ patches, p.edit.Upholds)
    (report : Report) : (runFrom report patches).Upholds := by
  refine fun m => meetsAt_always.mpr fun hm => ?_
  have attempts : ∀ m p, p ∈ patches → Module.Upkept m → True →
      ((attempt p).apply m).2.Upkept :=
    fun m p hp hm _ => meetsAt_always.mp (upholds_attempt (h p hp) m) hm
  exact runFrom_preserves (R := fun _ => True) attempts report hm fun _ _ => trivial

/-- A module that is compacted is built from a file that was checked. -/
theorem upholds_tidy : tidy.Upholds := by
  refine fun m => meetsAt_always.mpr fun hm => ?_
  rw [apply_tidy]
  cases h : m.compacted with
  | error fault => exact hm
  | ok m' =>
    obtain ⟨f, -, check, rfl⟩ := Module.compacted_eq_ok h
    have built := Placement.upkept_build (ModuleFile.check_eq_ok_iff_wellFormed.mp check)
    exact built.withTouched m.touched

theorem upholds_run {patches : List Patch} (h : ∀ p ∈ patches, p.edit.Upholds) :
    (run patches).Upholds := by
  refine .bind (.update fun _ hm => hm.withTouched []) fun _ => ?_
  refine .bind (upholds_runFrom h .empty) fun report => ?_
  exact .bind upholds_tidy fun _ => .pure report

end Batch

/-! ## Work on a module -/

namespace Session

open Edit

variable {s s' : Session} {m : Module}

/-- What comes of a session by actions, operations of plans and whole batches, whether they succeed
or not. Nothing is declared on a type that does not exist. -/
inductive Reaches (s : Session) : Session → Prop where
  | start : Reaches s s
  | act {s' : Session} (a : Action) (before : Reaches s s')
    (proper : ∀ id, a.owner? = some id → id.index < s'.current.types.size) : Reaches s (s'.step a)
  | operate {s' : Session} (o : Plan.Operation) (before : Reaches s s') :
    Reaches s { s' with current := ((operation o).apply s'.current).2 }
  | batch {s' : Session} (os : List Plan.Operation) (before : Reaches s s') :
    Reaches s { s' with current := ((Batch.run (os.map .ofOperation)).apply s'.current).2 }

/-- Whatever is done, declarations stay in order and types list what names them. -/
theorem Reaches.upkept (reached : s.Reaches s') (h : s.current.Upkept) : s'.current.Upkept := by
  induction reached with
  | start => exact h
  | act a _ proper ih => exact upkept_step ih proper
  | operate o _ ih => exact meetsAt_always.mp (upholds_operation o _) ih
  | batch os _ ih =>
    refine meetsAt_always.mp (Batch.upholds_run (fun p hp => ?_) _) ih
    obtain ⟨o, -, rfl⟩ := List.mem_map.mp hp
    exact upholds_operation o

end Session

/-! ## Where modules come from -/

namespace Module

variable {m : Module}

theorem upkept_new (name : String) : (Module.new name).Upkept where
  orderly := by
    constructor <;> simp [Module.new, Tables.empty, Tables.records, Tables.typeNames]
  coherent := Tables.coherent_empty name
  code := by simp [Module.new, Arena.All, Arena.empty]
  bodies := by simp [Module.new, Tables.empty]

/-- If there are numbers for all types and fields, look-ups need no more than order and
coherence. -/
theorem Upkept.legible (h : m.Upkept) (types : m.types.size ≤ Arena.capacity)
    (fields : m.fields.size ≤ Arena.capacity) : m.Legible where
  types id d hd := by
    refine h.orderly.types id.index d.record ?_
    rw [← Tables.map_record_type?, hd]
    rfl
  names id id' there there' same := by
    obtain ⟨d, hd⟩ := Option.isSome_iff_exists.mp there
    obtain ⟨d', hd'⟩ := Option.isSome_iff_exists.mp there'
    exact Tables.typeName_inj (h.orderly.names types) (Array.getElem?_eq_some_iff.mp hd).1
      (Array.getElem?_eq_some_iff.mp hd').1 same
  members x y d e hd he owner name := by
    have distinct := nodup_members_iff.mp (h.orderly.members fields)
    have apart {x y : FieldId} {d e : FieldDef} (hd : m.field? x = some d)
        (he : m.field? y = some e) (owner : d.owner = e.owner) (name : d.name = e.name) :
        ¬ x.index < y.index := fun before =>
      distinct y.index e he x.index before d hd owner name
    have same : x.number.toNat = y.number.toNat :=
      le_antisymm (not_lt.mp (apart he hd owner.symm name.symm))
        (not_lt.mp (apart hd he owner name))
    exact congrArg FieldId.mk (UInt32.toNat_inj.mp same)
  nested _ _ := h.coherent.mem_nestedOf types
  fields _ _ := h.coherent.mem_fieldsOf fields

end Module

/-- In every module that comes of one that was loaded or made from nothing, looking up a name finds
the type that is called so and nothing else; no two types are called alike; and a field is found by
its type and its name. There must be numbers for all types and fields. -/
theorem lookup_inverts_naming {m : Module} {s : Session}
    (origin : (∃ f : ModuleFile, f.load = .ok m) ∨ ∃ name, m = Module.new name)
    (reached : Session.Reaches ⟨m, []⟩ s) (types : s.current.types.size ≤ Arena.capacity)
    (fields : s.current.fields.size ≤ Arena.capacity) :
    (∀ text id, s.current.findType text = some id ↔
      (s.current.type? id).isSome ∧ s.current.typeName id = text) ∧
    (∀ id id', (s.current.type? id).isSome → (s.current.type? id').isSome →
      s.current.typeName id = s.current.typeName id' → id = id') ∧
    ∀ f d, s.current.field? f = some d → s.current.findField d.owner d.name = some f := by
  have start : m.Upkept := by
    rcases origin with ⟨f, loaded⟩ | ⟨name, rfl⟩
    · obtain ⟨accepted, rfl⟩ := ModuleFile.load_eq_ok.mp loaded
      exact Placement.upkept_build (ModuleFile.check_eq_ok_iff_wellFormed.mp accepted)
    · exact Module.upkept_new name
  have legible := (reached.upkept start).legible types fields
  exact ⟨fun _ _ => legible.findType_eq_some, legible.names,
    fun f d hd => legible.findField_eq_some.mpr ⟨d, hd, rfl, rfl⟩⟩

/-- The actions that declare a type in the type of the sample, and a field in the new type. -/
def Sample.additions : List Action :=
  [.addNestedType ⟨0⟩ "Cell" ⟨TypeFlags.visible⟩,
    .addField ⟨1⟩ "value" ⟨FieldFlags.visible⟩ (.primitive .int)]

/-- An instance: both are found in what the additions make of the sample. -/
theorem lookup_inverts_naming_sample :
    (Session.run ⟨Sample.file.build, []⟩ Sample.additions).current.findType "Counter/Cell" =
        some ⟨1⟩ ∧
      (Session.run ⟨Sample.file.build, []⟩ Sample.additions).current.findField ⟨1⟩ "value" =
        some ⟨0⟩ := by
  have loaded : Sample.file.load = .ok Sample.file.build :=
    ModuleFile.load_eq_ok.mpr ⟨Sample.checked, rfl⟩
  have reached : Session.Reaches ⟨Sample.file.build, []⟩
      (Session.run ⟨Sample.file.build, []⟩ Sample.additions) := by
    refine .act _ (.act _ .start ?_) ?_ <;> rintro _ ⟨⟩ <;> decide +kernel
  obtain ⟨types, -, fields⟩ := lookup_inverts_naming (.inl ⟨_, loaded⟩) reached
    (by decide +kernel) (by decide +kernel)
  have cell : (Session.run ⟨Sample.file.build, []⟩ Sample.additions).current.type? ⟨1⟩ =
      some ⟨"", "Cell", ⟨TypeFlags.visible ||| TypeFlags.nested⟩, some ⟨0⟩, ⟨[], [⟨0⟩], []⟩⟩ := by
    decide +kernel
  have value : (Session.run ⟨Sample.file.build, []⟩ Sample.additions).current.field? ⟨0⟩ =
      some ⟨⟨1⟩, "value", ⟨FieldFlags.visible⟩, .primitive .int⟩ := by decide +kernel
  have counter : (Session.run ⟨Sample.file.build, []⟩ Sample.additions).current.type? ⟨0⟩ =
      some ⟨"", "Counter", ⟨TypeFlags.visible⟩, none, ⟨[⟨0⟩], [], [⟨1⟩]⟩⟩ := by
    decide +kernel
  refine ⟨(types _ _).mpr ⟨by rw [cell]; rfl, ?_⟩, fields _ _ value⟩
  rw [Tables.typeName_nested cell rfl (by decide), Tables.typeName_top counter rfl]
  rfl

end Graft
