import Graft.Plan.Operation
import Graft.Proofs.Stages

/-!
# Faults that end a batch

A batch skips a patch only if a name is missing. An operation looks up the names of its plan before
it does anything else, and what it comes down to then never fails for want of a name. So a fault
that is skipped always says that something was not found under the name that the plan has for it,
and a patch that is skipped has changed nothing.
-/

namespace Graft

/-- If a name is missing, nothing has changed. -/
def Contract.lookingUpFirst : Contract :=
  .onFailure fun fault m m' => fault.isSoft = true → m' = m

namespace Edit

open Plan

variable {m m' : Module} {e : Edit Unit} {k template : MethodId} {owner : TypeId} {name : String}

/-! ## What operations come down to -/

theorem changes_makePublic : (makePublic k).Changes :=
  .update (fun _ => Module.le_modifyMethod) fun _ => rfl

theorem built_cloneMethod : (cloneMethod owner template name).Built := by
  refine .bind (.stage staged_cloneSignature) fun k => .get_bind (fun _ => rfl) fun m => ?_
  split
  · exact built_copyBody.discard
  · exact .stage (Changes.pure ()).staged

/-- What an operation comes down to once its names are found in the module. -/
inductive Part (m : Module) : Edit Unit → Prop
  | returnLiteral (k : MethodId) (value : Literal TypeId) :
    Part m (discard (returnLiteral k value))
  | makePublic (k : MethodId) : Part m (makePublic k)
  | injectCall (k callee : MethodId) : Part m (discard (injectCall k callee))
  | removeRange (k : MethodId) (first last : Nat) : Part m (discard (removeRange k first last))
  | pad (k : MethodId) (position count : Nat) : Part m (discard (pad k position count))
  | cloneMethod {owner : TypeId} {template : String} {k : MethodId}
    (found : m.requireMethod owner template = .ok k) (name : String) :
    Part m (cloneMethod owner k name)
  | insertAt (k : MethodId) (position : Nat) (i : Instruction InsnId) :
    Part m (discard (insertAt k position i))
  | replaceAt (k : MethodId) (position : Nat) (i : Instruction InsnId) :
    Part m (discard (replaceAt k position i))
  | copyRange (k source : MethodId) (first last position : Nat) :
    Part m (discard (copyRange k source first last position))

theorem Part.built (part : Part m e) : e.Built := by
  cases part with
  | returnLiteral => exact built_returnLiteral.discard
  | makePublic => exact .stage changes_makePublic.staged
  | injectCall => exact built_injectCall.discard
  | removeRange => exact (Built.stage staged_removeRange).discard
  | pad => exact (Built.stage staged_pad).discard
  | cloneMethod => exact built_cloneMethod
  | insertAt => exact (Built.stage staged_insertAt).discard
  | replaceAt => exact (Built.stage staged_replaceAt).discard
  | copyRange => exact (Built.stage staged_copyRange).discard

/-- The edit looks up names in the module, and then comes down to a part. -/
inductive Resolves (m : Module) : Edit Unit → Prop
  | part {e : Edit Unit} (part : Part m e) : Resolves m e
  | ask_bind {α : Type} {f : Tables Members LiveBody → Except Fault α} {g : α → Edit Unit}
    (hg : ∀ a, f m.toTables = .ok a → Resolves m (g a)) : Resolves m (ask f >>= g)

theorem resolves_operation (o : Operation) (m : Module) : Resolves m (operation o) := by
  cases o with
  | setReturn target value =>
    exact .ask_bind fun k _ => .ask_bind fun value _ => .part (.returnLiteral k value)
  | makePublic target => exact .ask_bind fun k _ => .part (.makePublic k)
  | injectCall target callee =>
    exact .ask_bind fun k _ => .ask_bind fun callee _ => .part (.injectCall k callee)
  | removeRange target first last => exact .ask_bind fun k _ => .part (.removeRange k first last)
  | pad target position count => exact .ask_bind fun k _ => .part (.pad k position count)
  | cloneMethod template name =>
    exact .ask_bind fun owner _ => .ask_bind fun k found => .part (.cloneMethod found name)
  | insert target position i =>
    exact .ask_bind fun k _ => .ask_bind fun i _ => .part (.insertAt k position i)
  | replace target position i =>
    exact .ask_bind fun k _ => .ask_bind fun i _ => .part (.replaceAt k position i)
  | copyRange target source first last position =>
    exact .ask_bind fun k _ => .ask_bind fun source _ =>
      .part (.copyRange k source first last position)

namespace Resolves

/-- Looking up names changes nothing, so it is the part that has to meet a contract. -/
theorem meetsAt {C : Contract} (missing : ∀ fault, C.failed fault m m)
    (parts : ∀ e, Part m e → e.MeetsAt C m) (he : Resolves m e) : e.MeetsAt C m := by
  induction he with
  | part part => exact parts _ part
  | ask_bind _ ih => exact .check_bind (fun fault _ => missing fault) ih

theorem goesAlong (same : m.SameContent m') (he : Resolves m e) :
    e.GoesAlong Module.SameContent m m' := by
  induction he with
  | part part => exact part.built.goesAlong same
  | @ask_bind _ f _ _ ih =>
    have tables := congrArg Module.toTables (show m.clearTouched = m'.clearTouched from same)
    change m.toTables = m'.toTables at tables
    exact .check_bind (congrArg f tables.symm) same ih

end Resolves

/-! ## Missing names -/

/-- If the edit fails because a name is missing, it has changed nothing. -/
def LooksUpFirst {α : Type} (e : Edit α) : Prop := e.Meets .lookingUpFirst

/-- An operation looks up the names of its plan before it does anything. -/
theorem looksUpFirst_operation (o : Operation) : (operation o).LooksUpFirst := by
  intro m
  refine (resolves_operation o m).meetsAt (fun _ _ => rfl) fun e part => ?_
  refine (part.built.strict m).mono (fun _ _ => trivial) fun fault m' hard soft => ?_
  cases hard.symm.trans soft

end Edit

end Graft
