import Graft.Proofs.Bystanders
import Graft.Proofs.Operations

/-!
# What edits keep

Many properties of modules are kept by every step of an edit, whether the edit succeeds or fails on
the way. Whatever the steps keep, the edit does, as long as there are handles for all slots. What
all actions keep, a session does.
-/

namespace Graft

/-- A property of modules is kept, whether the edit succeeds or not. -/
def Contract.keeping (P : Module → Prop) : Contract :=
  .bounded (fun m => m.arena.size ≤ Arena.capacity) fun m m' => P m → P m'

namespace Edit

variable {α : Type} {P : Module → Prop} {m m' : Module} {k : MethodId}

instance : (Contract.keeping P).Idle := Contract.idle_bounded fun _ => id

instance : (Contract.keeping P).Chains :=
  Contract.chains_bounded (fun le => le.slots.trans) fun first second hm => second (first hm)

/-- The edit keeps the property. -/
def Keeps (P : Module → Prop) (e : Edit α) : Prop := e.Meets (.keeping P)

namespace Keeps

theorem apply {e : Edit α} (he : e.Keeps P) (hm : P m)
    (room : (e.apply m).2.arena.size ≤ Arena.capacity) : P (e.apply m).2 :=
  (meetsAt_bounded.mp (he m)).2 room hm

theorem of_staged {target : Option MethodId} {e : Edit α} (staged : e.Staged target)
    (touch : ∀ k, target = some k → ∀ m, P m → P (m.touch k))
    (done : ∀ m a m', P m → m'.arena.size ≤ Arena.capacity → e.apply m = (.ok a, m') → P m') :
    e.Keeps P :=
  staged.bounded (fun _ => id) touch fun m a m' room ran hm => done m a m' hm room ran

end Keeps

/-! ## Declarations -/

/-- The property is kept if a type, a field, or a method that is still to be filled in is added, and
if the locals of a method are copied. -/
structure Declarable (P : Module → Prop) : Prop where
  addType : ∀ (m : Module) d, P m → P { m with toTables := m.enterType d }
  addField : ∀ (m : Module) d, P m → P { m with toTables := m.enterField d }
  addMethod : ∀ (m : Module) d, d.Blank → P m → P (m.addMethod d)
  copyLocals : ∀ (m : Module) k d, P m → P (localsCopied d k m)

namespace Declarable

variable {owner outer : TypeId} {template : MethodId} {space name : String}

theorem keeps_addType (h : Declarable P) {flags : TypeFlags} :
    (Edit.addType space name flags).Keeps P :=
  .of_staged staged_addType nofun fun m id m' hm _ ok => by
    obtain ⟨-, -, -, -, rfl⟩ := apply_addType_ok.mp ok
    exact h.addType m _ hm

theorem keeps_addNestedType (h : Declarable P) {flags : TypeFlags} :
    (addNestedType outer name flags).Keeps P :=
  .of_staged staged_addNestedType nofun fun m id m' hm _ ok => by
    obtain ⟨-, -, -, rfl⟩ := apply_addNestedType_ok.mp ok
    exact h.addType m _ hm

theorem keeps_addField (h : Declarable P) {flags : FieldFlags} {type : TypeSig} :
    (Edit.addField owner name flags type).Keeps P :=
  .of_staged staged_addField nofun fun m id m' hm _ ok => by
    obtain ⟨-, -, -, rfl⟩ := apply_addField_ok.mp ok
    exact h.addField m _ hm

theorem keeps_addMethod (h : Declarable P) {flags : MethodFlags} {signature : MethodSig} :
    (Edit.addMethod owner name flags signature).Keeps P :=
  .of_staged staged_addMethod nofun fun m k m' hm _ ok => by
    obtain ⟨d, blank, rfl⟩ := exists_addMethod_of_ok ok
    exact h.addMethod m d blank hm

theorem keeps_cloneSignature (h : Declarable P) : (cloneSignature owner template name).Keeps P :=
  .of_staged staged_cloneSignature nofun fun m k m' hm _ ok => by
    obtain ⟨d, -, rfl, rfl⟩ := apply_cloneSignature_blank ok
    exact h.copyLocals _ _ d (h.addMethod m _ blank_blankCopy hm)

end Declarable

end Edit

/-! ## Sessions -/

variable {P : Module → Prop}

/-- What declarations keep, every action does that keeps it when it edits a body. -/
theorem Action.keeps_edit (declarable : Edit.Declarable P) {kept : List Fragment} {a : Action}
    (body : ∀ k, a.target? = some k → (a.edit kept).Keeps P) : (a.edit kept).Keeps P := by
  cases a with
  | addType => exact declarable.keeps_addType.discard
  | addNestedType => exact declarable.keeps_addNestedType.discard
  | addField => exact declarable.keeps_addField.discard
  | addMethod => exact declarable.keeps_addMethod.discard
  | cloneSignature => exact declarable.keeps_cloneSignature.discard
  | make => exact Edit.Meets.pure ()
  | lift => exact Edit.Meets.pure ()
  | _ => exact body _ rfl

theorem Session.keeps_run (edits : ∀ kept a, (Action.edit kept a).Keeps P) {s : Session}
    {actions : List Action} (hs : P s.current)
    (room : (s.run actions).current.arena.size ≤ Arena.capacity) : P (s.run actions).current := by
  induction actions generalizing s with
  | nil => exact hs
  | cons a actions ih =>
    have le := grows_run (s.step a) actions
    exact ih ((edits s.kept a).apply hs (le.slots.trans room)) room

end Graft
