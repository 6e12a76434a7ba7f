import Graft.Proofs.Declaring
import Graft.Proofs.Loading
import Graft.Proofs.Sample

/-!
# Editing sessions

A session is a module that is edited step by step, and the fragments that were made or lifted out of
it on the way. Each action may succeed or fail. A session that starts with a sound module has a
sound module after any sequence of actions.
-/

namespace Graft

/-- What can be done in a session. -/
inductive Action where
  | addType (space name : String) (flags : TypeFlags)
  | addNestedType (outer : TypeId) (name : String) (flags : TypeFlags)
  | addField (owner : TypeId) (name : String) (flags : FieldFlags) (type : TypeSig)
  | addMethod (owner : TypeId) (name : String) (flags : MethodFlags) (signature : MethodSig)
  | insertAt (k : MethodId) (position : Nat) (i : Instruction InsnId)
  | append (k : MethodId) (code : List (Instruction InsnId))
  | removeRange (k : MethodId) (first last : Nat)
  | replaceAt (k : MethodId) (position : Nat) (i : Instruction InsnId)
  | assign (k : MethodId) (id : InsnId) (i : Instruction InsnId)
  | assignAt (k : MethodId) (position : Nat) (i : Instruction InsnId)
  /-- Make a fragment from its parts and keep it. -/
  | make (code : List (Instruction Nat)) (ranges : List (ExceptionRange Nat))
  /-- Lift a fragment out of a body and keep it. -/
  | lift (k : MethodId) (first last : Nat)
  /-- Put a copy of the kept fragment with the number into a body. -/
  | splice (k : MethodId) (position number : Nat)
  | copyRange (k source : MethodId) (first last position : Nat)
  | pad (k : MethodId) (position count : Nat)
  | addLocal (k : MethodId) (type : TypeSig)
  | declareMaxStack (k : MethodId) (depth : UInt16)
  | returnLiteral (k : MethodId) (value : Literal TypeId)
  | injectCall (target callee : MethodId)
  | cloneSignature (owner : TypeId) (template : MethodId) (name : String)
  | copyBody (source target : MethodId)

namespace Action

/-- What an action does to the module, with the fragments kept so far. -/
def edit (kept : List Fragment) : Action → Edit Unit
  | .addType space name flags => discard (Edit.addType space name flags)
  | .addNestedType outer name flags => discard (Edit.addNestedType outer name flags)
  | .addField owner name flags type => discard (Edit.addField owner name flags type)
  | .addMethod owner name flags signature => discard (Edit.addMethod owner name flags signature)
  | .insertAt k position i => discard (Edit.insertAt k position i)
  | .append k code => discard (Edit.append k code)
  | .removeRange k first last => discard (Edit.removeRange k first last)
  | .replaceAt k position i => discard (Edit.replaceAt k position i)
  | .assign k id i => Edit.assign k id i
  | .assignAt k position i => Edit.assignAt k position i
  | .make _ _ => pure ()
  | .lift _ _ _ => pure ()
  | .splice k position number =>
    match kept[number]? with
    | some f => discard (Edit.splice k position f)
    | none => pure ()
  | .copyRange k source first last position =>
    discard (Edit.copyRange k source first last position)
  | .pad k position count => discard (Edit.pad k position count)
  | .addLocal k type => discard (Edit.addLocal k type)
  | .declareMaxStack k depth => Edit.declareMaxStack k depth
  | .returnLiteral k value => discard (Edit.returnLiteral k value)
  | .injectCall target callee => discard (Edit.injectCall target callee)
  | .cloneSignature owner template name => discard (Edit.cloneSignature owner template name)
  | .copyBody source target => discard (Edit.copyBody source target)

/-- The fragment that an action gives, if it gives one. -/
def fragment? (m : Module) : Action → Option Fragment
  | .make code ranges => (Fragment.ofParts code ranges).toOption
  | .lift k first last => (m.extract k first last).toOption
  | _ => none

end Action

/-- A module being edited, and the fragments kept aside. -/
structure Session where
  current : Module
  kept : List Fragment

namespace Session

variable {s : Session}

/-- One action. If it fails, the module is as the failing edit has left it. -/
def step (s : Session) (a : Action) : Session where
  current := ((a.edit s.kept).apply s.current).2
  kept := s.kept ++ (a.fragment? s.current).toList

/-- A sequence of actions. -/
def run (s : Session) (actions : List Action) : Session := actions.foldl step s

theorem run_concat (actions : List Action) (a : Action) :
    s.run (actions ++ [a]) = (s.run actions).step a :=
  List.foldl_concat step s a actions

/-- The module is sound, and the ranges of all fragments run forward. -/
structure Sound (s : Session) : Prop where
  current : s.current.Sound
  kept : ∀ f ∈ s.kept, f.Ordered

theorem safe_edit (kept : List Fragment) (h : ∀ f ∈ kept, f.Ordered) (a : Action) :
    (a.edit kept).Safe := by
  cases a with
  | addType => exact Edit.safe_addType.discard
  | addNestedType => exact Edit.safe_addNestedType.discard
  | addField => exact Edit.safe_addField.discard
  | addMethod => exact Edit.safe_addMethod.discard
  | insertAt => exact Edit.safe_insertAt.discard
  | append => exact Edit.safe_append.discard
  | removeRange => exact Edit.safe_removeRange.discard
  | replaceAt => exact Edit.safe_replaceAt.discard
  | assign => exact Edit.safe_assign
  | assignAt => exact Edit.safe_assignAt
  | make => exact Edit.Meets.pure ()
  | lift => exact Edit.Meets.pure ()
  | splice k p number =>
    rw [Action.edit]
    split
    · rename_i f hf
      exact (Edit.safe_splice (h f (List.mem_of_getElem? hf))).discard
    · exact Edit.Meets.pure ()
  | copyRange => exact Edit.safe_copyRange.discard
  | pad => exact Edit.safe_pad.discard
  | addLocal => exact Edit.safe_addLocal.discard
  | declareMaxStack => exact Edit.safe_declareMaxStack
  | returnLiteral => exact Edit.safe_returnLiteral.discard
  | injectCall => exact Edit.safe_injectCall.discard
  | cloneSignature => exact Edit.safe_cloneSignature.discard
  | copyBody => exact Edit.safe_copyBody.discard

theorem grows_edit (kept : List Fragment) (a : Action) : (a.edit kept).Grows := by
  have grows := (safe_edit [] nofun a).grows
  cases a with
  | splice k p number =>
    rw [Action.edit]
    split
    · exact Edit.staged_splice.grows.discard
    · exact Edit.Meets.pure ()
  | _ => exact grows

theorem ordered_fragment? {m : Module} (hm : m.Sound) {a : Action} {f : Fragment}
    (h : a.fragment? m = some f) : f.Ordered := by
  cases a with
  | make code ranges => exact (Fragment.ofParts_eq_ok (toOption_eq_some.mp h)).2.2
  | lift k first last => exact hm.ordered_of_extract (toOption_eq_some.mp h)
  | _ => cases h

/-- What one action preserves. -/
theorem Sound.step (h : s.Sound) {a : Action} (n : (s.step a).current.Numbered) :
    (s.step a).Sound where
  current := (safe_edit s.kept h.kept a).sound s.current h.current n
  kept f hf := by
    rcases List.mem_append.mp hf with hf | hf
    · exact h.kept f hf
    · exact ordered_fragment? h.current (Option.mem_toList.mp hf)

theorem grows_run (s : Session) (actions : List Action) : s.current.Le (s.run actions).current := by
  induction actions generalizing s with
  | nil => exact .refl _
  | cons a actions ih => exact ((grows_edit s.kept a).le s.current).trans (ih (s.step a))

/-- What a sequence of actions preserves, as long as methods and slots can be numbered. -/
theorem Sound.run (h : s.Sound) {actions : List Action} (n : (s.run actions).current.Numbered) :
    (s.run actions).Sound := by
  induction actions generalizing s with
  | nil => exact h
  | cons a actions ih =>
    have le := grows_run (s.step a) actions
    have n' : (s.step a).current.Numbered :=
      ⟨le.methods.trans n.methods, le.slots.trans n.slots⟩
    exact ih (h.step n') n

end Session

/-- Whatever a file holds, the module loaded from it is linked, and its operands resolve. Whatever
is done to a sound module, it stays sound, as long as there are handles for all of its methods and
slots. -/
theorem module_soundness :
    (∀ (f : ModuleFile) (m : Module), f.load = .ok m → m.Numbered →
      m.Linked ∧ ∀ k b, m.body? k = some b → ∀ id ∈ b.code, ∀ i, m.instruction? id = some i →
        i.Resolves m.toTables) ∧
    ∀ (m : Module) (actions : List Action), m.Sound →
      (Session.run ⟨m, []⟩ actions).current.Numbered →
      (Session.run ⟨m, []⟩ actions).current.Sound := by
  constructor
  · intro f m load n
    obtain ⟨check, rfl⟩ := ModuleFile.load_eq_ok.mp load
    exact ⟨Placement.linked_build check n, fun k b hb id hid i hi =>
      Placement.resolves_build check n.slots hb hid hi⟩
  · intro m actions hm n
    exact (Session.Sound.run ⟨hm, fun _ hf => absurd hf List.not_mem_nil⟩ n).current

/-- The actions that declare a type with one method. -/
def Sample.declarations : List Action :=
  [.addType "" "Counter" ⟨TypeFlags.visible⟩,
    .addMethod ⟨0⟩ "next" ⟨MethodFlags.visible ||| MethodFlags.static⟩ ⟨.primitive .int, [], []⟩]

/-- An instance: the sample is loaded; a module is made from nothing and gets a method with a body.
-/
theorem module_soundness_sample :
    (Sample.file.build.Linked ∧ ∀ k b, Sample.file.build.body? k = some b → ∀ id ∈ b.code, ∀ i,
      Sample.file.build.instruction? id = some i → i.Resolves Sample.file.build.toTables) ∧
    (Session.run ⟨Module.new "sample", []⟩
      (Sample.declarations ++ [.insertAt ⟨0⟩ 0 .ret])).current.Sound := by
  refine ⟨module_soundness.1 Sample.file _ ?_ ?_, module_soundness.2 _ _ ?_ ?_⟩
  · exact ModuleFile.load_eq_ok.mpr ⟨by decide +kernel, rfl⟩
  · constructor <;> decide +kernel
  · exact ⟨by simp [Module.new, Tables.empty, Arena.owner?, Arena.slot?, Arena.empty, Module.body?,
        Tables.method?], by simp [Module.new, Tables.empty, Module.body?, Tables.method?]⟩
  · -- the last action succeeds, so its outcome is known without simulating the body
    have hb : (Session.run ⟨Module.new "sample", []⟩ Sample.declarations).current.body? ⟨0⟩ =
        some Body.empty := by decide +kernel
    have placed := (Edit.apply_insertAt_ok (i := .ret)).mpr
      ⟨_, hb, Nat.zero_le _, ⟨.of_none rfl rfl rfl, .of_none rfl rfl, List.forall_mem_nil _⟩,
        rfl, rfl⟩
    rw [Session.run_concat, Session.step, Action.edit, Edit.apply_discard, placed]
    constructor
    · rw [Module.rebuilt_eq hb, Module.size_methods_withBody]
      decide +kernel
    · rw [Module.arena_rebuilt, Arena.size_append]
      decide +kernel

end Graft
