import Graft.Proofs.Accord
import Graft.Proofs.Batches
import Graft.Proofs.Masking

/-!
# Edits do not look into other bodies

An edit ignores a method that does not count as touched if it goes the same way when the method is
masked, does the same to the masked module, and does not touch the method. Edits of one body ignore
all other methods, but for the source of a copy. So does each operation of a plan that changes a
method, and so does an attempt at it, since only what is touched is verified.
-/

namespace Graft

/-- The second module is the first with `k`, which is not touched, masked. -/
structure Module.Masks (k : MethodId) (m m' : Module) : Prop where
  eq : m' = m.mask k
  untouched : k ∉ m.touched

namespace Edit

open Graft.Module

variable {α β : Type} {m m' : Module} {j k source callee : MethodId} {b : LiveBody}
  {p first last count : Nat} {i : Instruction InsnId} {s : TypeSig} {ids : List InsnId}

/-- The edit goes the same way whether or not `k` is masked, and leaves it alone. -/
def Ignores (k : MethodId) (m m' : Module) (e : Edit α) : Prop := e.GoesAlong (Masks k) m m'

section

variable (masks : m.Masks k m')
include masks

/-! ## Steps -/

theorem ignores_update {f : Module → Module} (same : f (m.mask k) = (f m).mask k)
    (untouched : k ∉ (f m).touched) : (update f).Ignores k m m' := by
  refine .update ⟨?_, untouched⟩
  rw [masks.eq, same]

theorem ignores_arena {f : Arena → Arena} (same : (f m.arena).disown k = f (m.arena.disown k)) :
    (update fun m => { m with arena := f m.arena }).Ignores k m m' :=
  ignores_update masks (congrArg (fun arena => { m.modifyMethod k Method.masked with arena })
    same.symm) masks.untouched

theorem ignores_release : (release ids).Ignores k m m' :=
  ignores_arena masks (f := (·.releaseAll ids)) Arena.disown_releaseAll

theorem ignores_modifyInstructions {f : Instruction InsnId → Instruction InsnId} :
    (modifyInstructions ids f).Ignores k m m' :=
  ignores_arena masks (f := (·.modifyAll ids f)) Arena.disown_modifyAll

section

variable (h : j ≠ k)
include h

theorem ignores_start : (start j).Ignores k m m' := by
  obtain rfl := masks.eq
  refine .check_bind (body_mask h) masks fun b _ => ?_
  refine .bind (ignores_update masks rfl ?_) fun _ _ _ masks => .pure masks b
  rw [mem_touched_touch]
  exact not_or.mpr ⟨h.symm, masks.untouched⟩

/-- What follows the start of an edit is compared on a module and the same module masked. -/
theorem ignores_start_bind {e : LiveBody → Edit α}
    (rest : ∀ b m, Masks k m (m.mask k) → (e b).Ignores k m (m.mask k)) :
    (start j >>= e).Ignores k m m' := by
  refine .bind (ignores_start masks h) fun b m m' masks => ?_
  obtain rfl := masks.eq
  exact rest b m masks

theorem ignores_alloc {code : List (Instruction InsnId)} : (alloc j code).Ignores k m m' := by
  obtain rfl := masks.eq
  constructor
  · have ids : (m.arena.disown k).nextIds code.length = m.arena.nextIds code.length := by
      rw [Arena.nextIds, Arena.size_disown, Arena.nextIds]
    exact congrArg Except.ok ids
  · have arena : (m.arena.disown k).append j code = (m.arena.append j code).disown k :=
      (Arena.disown_append h).symm
    exact ⟨congrArg (fun arena => { m.modifyMethod k Method.masked with arena }) arena,
      masks.untouched⟩

theorem ignores_setBody : (setBody j b).Ignores k m m' :=
  ignores_update masks (modifyMethod_mask h) masks.untouched

theorem ignores_finish : (finish j).Ignores k m m' := by
  refine ignores_update masks (raiseMaxStack_mask h) ?_
  rw [touched_raiseMaxStack]
  exact masks.untouched

/-- The end of all edits of code. -/
theorem ignores_finish_pure {a : α} : (do finish j; return a).Ignores k m m' :=
  .bind (ignores_finish masks h) fun _ _ _ masks => .pure masks a

theorem ignores_setBody_finish {a : α} : (do setBody j b; finish j; return a).Ignores k m m' :=
  .bind (ignores_setBody masks h) fun _ _ _ masks => ignores_finish_pure masks h

/-! ## Edits of one body -/

theorem ignores_insertAt : (insertAt j p i).Ignores k m m' := by
  refine ignores_start_bind masks h fun b m masks => ?_
  refine .check_bind checkPosition_mask masks fun _ _ => ?_
  refine .check_bind checkPlacement_mask masks fun _ _ => ?_
  exact .bind (ignores_alloc masks h) fun ids _ _ masks => ignores_setBody_finish masks h

theorem ignores_append {code : List (Instruction InsnId)} : (append j code).Ignores k m m' := by
  refine ignores_start_bind masks h fun b m masks => ?_
  refine .check_bind ?_ masks fun _ _ => ?_
  · simp only [checkPlacement_mask]
  · exact .bind (ignores_alloc masks h) fun ids _ _ masks => ignores_setBody_finish masks h

theorem ignores_removeRange : (removeRange j first last).Ignores k m m' := by
  refine ignores_start_bind masks h fun b m masks => ?_
  refine .check_bind checkRemovable_mask masks fun _ _ => ?_
  refine .check_bind checkNoJumpsInto_mask masks fun _ _ => ?_
  refine .check_bind survivors_mask masks fun ranges _ => ?_
  refine .bind (ignores_setBody masks h) fun _ m m' masks => ?_
  exact .bind (ignores_release masks) fun _ m m' masks => ignores_finish_pure masks h

theorem ignores_replaceAt : (replaceAt j p i).Ignores k m m' := by
  refine ignores_start_bind masks h fun b m masks => ?_
  refine .check_bind handleAt_mask masks fun old _ => ?_
  refine .check_bind checkPlacement_mask masks fun _ _ => ?_
  refine .bind (ignores_alloc masks h) fun ids m m' masks => ?_
  refine .bind (ignores_setBody masks h) fun _ m m' masks => ?_
  refine .bind (ignores_release masks) fun _ m m' masks => ?_
  exact .bind (ignores_modifyInstructions masks) fun _ m m' masks => ignores_finish_pure masks h

theorem ignores_splice {f : Fragment} : (splice j p f).Ignores k m m' := by
  refine ignores_start_bind masks h fun b m masks => ?_
  refine .check_bind checkPosition_mask masks fun _ _ => ?_
  refine .check_bind ?_ masks fun _ _ => .get_bind ?_ ?_
  · exact congrArg f.code.forM (funext fun _ => checkOperands_mask)
  · have size : (m.mask k).arena.size = m.arena.size := Arena.size_disown
    simp only [size]
  · exact .bind (ignores_alloc masks h) fun ids m m' masks => ignores_setBody_finish masks h

theorem ignores_copyRange (unread : source ≠ k) :
    (copyRange j source first last p).Ignores k m m' := by
  rw [copyRange, discard_then]
  refine ignores_start_bind masks h fun b m masks => ?_
  exact .check_bind (extract_mask unread) masks fun f _ => ignores_splice masks h

theorem ignores_pad : (pad j p count).Ignores k m m' := by
  refine ignores_start_bind masks h fun b m masks => ?_
  refine .check_bind checkPosition_mask masks fun _ _ => ?_
  exact .check_bind (checkPadding_mask h) masks fun _ _ => ignores_splice masks h

theorem ignores_addLocal : (addLocal j s).Ignores k m m' := by
  refine ignores_start_bind masks h fun b m masks => ?_
  refine .check_bind rfl masks fun _ _ => ?_
  refine .check_bind checkLocalsLeft_mask masks fun _ _ => ?_
  exact .bind (ignores_setBody masks h) fun _ m m' masks => .pure masks _

theorem ignores_resetBody {fresh : LiveBody} : (resetBody j fresh).Ignores k m m' := by
  refine .bind (ignores_start masks h) fun b m m' masks => ?_
  exact .bind (ignores_release masks) fun _ m m' masks => ignores_setBody masks h

/-! ## Edits of whole methods -/

theorem ignores_body : (discard (check (·.body j)) : Edit Unit).Ignores k m m' := by
  obtain rfl := masks.eq
  exact .discard (.check (body_mask h) masks)

theorem ignores_makePublic : (makePublic j).Ignores k m m' :=
  ignores_update masks (modifyMethod_mask h) masks.untouched

theorem ignores_returnLiteral {value : Literal TypeId} :
    (returnLiteral j value).Ignores k m m' := by
  refine .bind (ignores_body masks h) fun _ m m' masks => ?_
  obtain rfl := masks.eq
  refine .check_bind (checkReturns_of_outline outline_mask) masks fun _ _ => ?_
  refine .check_bind (value.push_of_outline outline_mask) masks fun push _ => ?_
  exact .bind (ignores_resetBody masks h) fun _ m m' masks => ignores_append masks h

theorem ignores_placeCall {call : List (Instruction Empty)} :
    (placeCall j callee call).Ignores k m m' := by
  obtain rfl := masks.eq
  refine .get_bind ?_ (ignores_splice masks h)
  simp only [Tables.givesValue_of_outline (outline_mask (m := m))]

theorem ignores_injectCall : (injectCall j callee).Ignores k m m' := by
  rw [injectCall_eq]
  refine .bind (ignores_body masks h) fun _ m m' masks => ?_
  obtain rfl := masks.eq
  refine .check_bind (checkInjectable_of_outline outline_mask) masks fun _ _ => ?_
  refine .check_bind (receiver?_of_outline outline_mask) masks fun receiver _ => ?_
  cases receiver with
  | none => exact ignores_placeCall masks h
  | some receiver =>
    exact .bind (ignores_addLocal masks h) fun slot m m' masks => ignores_placeCall masks h

end

end

/-! ## Operations -/

end Edit

namespace Plan.Operation

/-- The method that an operation changes; none if it declares another one. -/
def target? : Operation → Option MethodRef
  | setReturn target _ => some target
  | makePublic target => some target
  | injectCall target _ => some target
  | removeRange target _ _ => some target
  | pad target _ _ => some target
  | cloneMethod _ _ => none
  | insert target _ _ => some target
  | replace target _ _ => some target
  | copyRange target _ _ _ _ => some target

/-- The method that an operation copies instructions from. -/
def source? : Operation → Option MethodRef
  | copyRange _ source _ _ _ => some source
  | _ => none

/-- In the tables, the operation changes this method. -/
def AimsAt {β : Type} (t : Tables Members β) (o : Operation) (k : MethodId) : Prop :=
  ∃ r, o.target? = some r ∧ r.resolve t = .ok k

/-- In the tables, the operation copies from this method. -/
def CopiesFrom {β : Type} (t : Tables Members β) (o : Operation) (k : MethodId) : Prop :=
  ∃ r, o.source? = some r ∧ r.resolve t = .ok k

end Plan.Operation

namespace Edit

open Graft.Module Plan

variable {m m' : Module} {j k : MethodId} {o : Operation}

/-- An operation ignores the methods that it neither changes nor copies from. -/
theorem ignores_operation (masks : m.Masks k m') (aims : o.AimsAt m.toTables j) (h : j ≠ k)
    (unread : ¬ o.CopiesFrom m.toTables k) : (operation o).Ignores k m m' := by
  obtain ⟨r, target, found⟩ := aims
  obtain rfl := masks.eq
  -- names mean the same whether or not a method is masked
  have methods : ∀ r : MethodRef, r.resolve (m.mask k).toTables = r.resolve m.toTables :=
    fun r => r.resolve_of_outline outline_mask
  have codes : ∀ i : PlanInstruction, i.resolve (m.mask k).toTables = i.resolve m.toTables :=
    fun i => i.resolve_of_outline outline_mask
  have values : ∀ v : Literal String, v.resolve (m.mask k).toTables = v.resolve m.toTables :=
    fun v => v.resolve_of_outline outline_mask
  -- what the operation resolves its target to is the method that it changes
  have target_bind : ∀ {g : MethodId → Edit Unit}, (g j).Ignores k m (m.mask k) →
      (ask (fun t => r.resolve t) >>= g).Ignores k m (m.mask k) := by
    intro g hg
    refine .check_bind (methods r) masks fun i hi => ?_
    cases found.symm.trans hi
    exact hg
  cases o <;> cases target
  case setReturn value =>
    refine target_bind (.check_bind (values value) masks fun _ _ => ?_)
    exact .discard (ignores_returnLiteral masks h)
  case makePublic => exact target_bind (ignores_makePublic masks h)
  case injectCall callee =>
    refine target_bind (.check_bind (methods callee) masks fun _ _ => ?_)
    exact .discard (ignores_injectCall masks h)
  case removeRange => exact target_bind (.discard (ignores_removeRange masks h))
  case pad => exact target_bind (.discard (ignores_pad masks h))
  case insert i =>
    refine target_bind (.check_bind (codes i) masks fun _ _ => ?_)
    exact .discard (ignores_insertAt masks h)
  case replace i =>
    refine target_bind (.check_bind (codes i) masks fun _ _ => ?_)
    exact .discard (ignores_replaceAt masks h)
  case copyRange source first last position =>
    refine target_bind (.check_bind (methods source) masks fun source' hs => ?_)
    refine .discard (ignores_copyRange masks h fun same => unread ⟨source, rfl, ?_⟩)
    rwa [same] at hs

end Edit

/-! ## Verification -/

namespace Module

variable {m : Module} {j k : MethodId}

/-- A body verifies or not, whether or not another method is masked. -/
theorem verifyBody_mask (h : j ≠ k) : (m.mask k).verifyBody j = m.verifyBody j := by
  have owner : ∀ id, (m.mask k).arena.owner? id ≠ some j ↔ m.arena.owner? id ≠ some j :=
    fun id => not_congr (Arena.owner?_disown_iff.trans (and_iff_left h))
  have code : (m.mask k).checkCode j = m.checkCode j := by
    funext b
    have step : (m.mask k).checkInstruction j = m.checkInstruction j := by
      funext b locals seen ⟨id, p⟩
      simp only [checkInstruction, owner, instruction?_mask, methodName_mask, checkOperands_mask,
        checkTargets]
    rw [checkCode, step, checkCode]
  have ranges : (m.mask k).checkRanges j = m.checkRanges j := by
    funext b
    simp only [checkRanges, methodName_mask]
  simp only [verifyBody, body_mask h, code, ranges, simulate_mask h, methodName_mask]

theorem verifyBodies_mask {ks : List MethodId} (h : k ∉ ks) :
    (m.mask k).verifyBodies ks = m.verifyBodies ks := by
  induction ks with
  | nil => rfl
  | cons j ks ih =>
    obtain ⟨apart, later⟩ := List.ne_and_not_mem_of_not_mem_cons h
    show (discard ((m.mask k).verifyBody j) >>= fun _ => (m.mask k).verifyBodies ks) =
      (discard (m.verifyBody j) >>= fun _ => m.verifyBodies ks)
    rw [verifyBody_mask apart.symm, ih later]

end Module

namespace Batch

open Plan

variable {m : Module} {j k : MethodId} {o : Operation}

/-- An attempt at an operation ignores the methods that the operation does. -/
theorem apply_attempt_mask (aims : o.AimsAt m.toTables j) (h : j ≠ k)
    (unread : ¬ o.CopiesFrom m.toTables k) (untouched : m.touched = []) :
    (attempt (.ofOperation o)).apply (m.mask k) =
      (((attempt (.ofOperation o)).apply m).1, ((attempt (.ofOperation o)).apply m).2.mask k) := by
  have masks : m.Masks k (m.mask k) := ⟨rfl, by simp [untouched]⟩
  obtain ⟨same, left, clear⟩ := Edit.ignores_operation masks aims h unread
  have same : (Edit.operation o).apply (m.mask k) =
      (((Edit.operation o).apply m).1, ((Edit.operation o).apply m).2.mask k) := Prod.ext same left
  rcases ran : (Edit.operation o).apply m with ⟨fault | _, m'⟩ <;> rw [ran] at same clear
  · rw [apply_attempt_of_error (p := .ofOperation o) ran,
      apply_attempt_of_error (p := .ofOperation o) same]
  · have verify : (m'.mask k).verifyBodies (m'.mask k).touched = m'.verifyBodies m'.touched :=
      Module.verifyBodies_mask clear
    rw [apply_attempt_of_ok (p := .ofOperation o) ran,
      apply_attempt_of_ok (p := .ofOperation o) same, verify]
    cases m'.verifyBodies m'.touched <;> rfl

end Batch

end Graft
