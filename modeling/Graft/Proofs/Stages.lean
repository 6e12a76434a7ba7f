import Graft.Proofs.Coherence
import Graft.Proofs.Growth

/-!
# The stages of an edit

An edit of one body asks whether all is in order and then makes its changes, which cannot fail. It
may ask any number of questions first, and it counts the body as touched on the way. Edits of whole
methods are put together from such stages. From the shape alone it follows what an edit leaves
behind if it fails, that it only adds, that it never fails for want of a name, and that it goes the
same way whatever counts as touched before.
-/

namespace Graft

namespace Contract

/-- The edit only adds if it succeeds. If it fails, it has done nothing but to touch the target, and
it does not fail for want of a name. -/
def careful (target : Option MethodId) : Contract where
  done := Module.Le
  failed fault m m' := fault.isSoft = false ∧ (m' = m ∨ ∃ k, target = some k ∧ m' = m.touch k)

/-- The edit has done nothing but to touch the target if it fails. -/
def refusing (target : Option MethodId) : Contract :=
  .onFailure fun _ m m' => m' = m ∨ ∃ k, target = some k ∧ m' = m.touch k

/-- The edit does not fail for want of a name. -/
def strict : Contract := .onFailure fun fault _ _ => fault.isSoft = false

instance (target : Option MethodId) : (refusing target).Idle :=
  ⟨fun _ => trivial, fun _ _ _ => .inl rfl⟩

instance : strict.Idle := ⟨fun _ => trivial, fun _ hard _ => hard⟩

instance : strict.Chains := ⟨fun _ _ => trivial, fun _ hard => hard⟩

end Contract

/-- The modules differ at most in what counts as touched. -/
def Module.SameContent (m m' : Module) : Prop := m.clearTouched = m'.clearTouched

namespace Edit

open Graft.Module

/-! ## Shapes -/

/-- The edit cannot fail. It only adds to the module, and what counts as touched decides nothing. -/
inductive Changes : {α : Type} → Edit α → Prop
  | pure {α : Type} (a : α) : Changes (pure a)
  | update {f : Module → Module} (le : ∀ m : Module, m.Le (f m))
    (quiet : ∀ m : Module, (f m.clearTouched).clearTouched = (f m).clearTouched) :
    Changes (update f)
  | alloc (k : MethodId) (code : List (Instruction InsnId)) : Changes (alloc k code)
  | get_bind {α : Type} {g : Module → Edit α} (quiet : ∀ m : Module, g m.clearTouched = g m)
    (hg : ∀ m, Changes (g m)) : Changes (get >>= g)
  | bind {α β : Type} {e : Edit α} {f : α → Edit β} (he : Changes e) (hf : ∀ a, Changes (f a)) :
    Changes (e >>= f)

/-- The edit asks first and then changes. On the way, the body of the target counts as touched. -/
inductive Staged (target : Option MethodId) : {α : Type} → Edit α → Prop
  | changes {α : Type} {e : Edit α} (he : e.Changes) : Staged target e
  | check_bind {α β : Type} {f : Module → Except Fault α} {g : α → Edit β}
    (strict : ∀ m, Graft.Strict (f m)) (quiet : ∀ m : Module, f m.clearTouched = f m)
    (hg : ∀ a, Staged target (g a)) : Staged target (check f >>= g)
  | get_bind {α : Type} {g : Module → Edit α} (quiet : ∀ m : Module, g m.clearTouched = g m)
    (hg : ∀ m, Staged target (g m)) : Staged target (get >>= g)
  | start_bind {α : Type} {k : MethodId} {g : LiveBody → Edit α} (aims : target = some k)
    (hg : ∀ b, Staged target (g b)) : Staged target (start k >>= g)

/-- The edit is put together from edits that ask first and then change. -/
inductive Built : {α : Type} → Edit α → Prop
  | stage {α : Type} {target : Option MethodId} {e : Edit α} (he : e.Staged target) : Built e
  | get_bind {α : Type} {g : Module → Edit α} (quiet : ∀ m : Module, g m.clearTouched = g m)
    (hg : ∀ m, Built (g m)) : Built (get >>= g)
  | bind {α β : Type} {e : Edit α} {f : α → Edit β} (he : Built e) (hf : ∀ a, Built (f a)) :
    Built (e >>= f)

/-- The edit does nothing but to touch the target if it fails. -/
def Refuses (target : Option MethodId) {α : Type} (e : Edit α) : Prop := e.Meets (.refusing target)

/-- The edit never fails for want of a name. -/
def Strict {α : Type} (e : Edit α) : Prop := e.Meets .strict

variable {α β : Type} {e : Edit α} {target : Option MethodId} {m m' : Module} {fault : Fault}
  {k source callee template : MethodId} {p first last count : Nat} {i : Instruction InsnId}
  {owner outer : TypeId} {space name : String}

/-! ## What an edit leaves behind -/

/-- Changes succeed. -/
theorem Changes.exists_apply (he : e.Changes) (m : Module) :
    ∃ a m', e.apply m = (.ok a, m') ∧ m.Le m' := by
  induction he generalizing m with
  | pure a => exact ⟨a, m, rfl, .refl m⟩
  | update le _ => exact ⟨(), _, rfl, le m⟩
  | alloc k code =>
    refine ⟨_, _, rfl, le_rfl, ?_, fun _ => id⟩
    simp
  | get_bind _ _ ih =>
    rw [apply_get_bind]
    exact ih m m
  | bind _ _ ih ih' =>
    obtain ⟨a, m₁, first, le⟩ := ih m
    obtain ⟨b, m₂, second, le'⟩ := ih' a m₁
    exact ⟨b, m₂, apply_bind_ok.mpr ⟨a, m₁, first, second⟩, le.trans le'⟩

theorem Staged.careful (he : e.Staged target) : e.Meets (.careful target) := by
  induction he with
  | changes he =>
    intro m
    obtain ⟨a, m', ran, le⟩ := he.exists_apply m
    constructor
    · intro b m₁ ran'
      cases ran.symm.trans ran'
      exact le
    · intro fault m₁ ran'
      cases ran.symm.trans ran'
  | check_bind strict _ _ ih =>
    intro m
    exact .check_bind (fun fault answer => ⟨strict m fault answer, .inl rfl⟩) fun a _ => ih a m
  | get_bind _ _ ih => exact .get_bind ih
  | @start_bind _ k _ aims _ ih =>
    intro m
    constructor
    · intro a m' ran
      obtain ⟨b, -, ran⟩ := apply_start_bind_ok.mp ran
      exact le_touch.trans ((ih b _).done a m' ran)
    · intro fault m' ran
      rcases apply_start_bind_error.mp ran with ⟨-, rfl, rfl⟩ | ⟨b, -, ran⟩
      · exact ⟨rfl, .inl rfl⟩
      · obtain ⟨hard, state⟩ := (ih b _).failed fault m' ran
        refine ⟨hard, .inr ⟨k, aims, ?_⟩⟩
        rcases state with same | ⟨j, aims', same⟩
        · exact same
        · -- the target is touched twice, which is touching it
          obtain rfl := Option.some.inj (aims.symm.trans aims')
          exact same.trans touch_touch

namespace Staged

section

variable (he : e.Staged target)
include he

theorem grows : e.Grows := by
  refine he.careful.mono (fun _ _ => id) fun fault m m' failed => ?_
  obtain ⟨-, rfl | ⟨k, -, rfl⟩⟩ := failed
  · exact .refl _
  · exact le_touch

theorem refuses : e.Refuses target :=
  he.careful.mono (fun _ _ _ => trivial) fun _ _ _ failed => failed.2

theorem strict : e.Strict :=
  he.careful.mono (fun _ _ _ => trivial) fun _ _ _ failed => failed.1

/-- What holds of all that an edit can leave behind holds of what it does leave. -/
theorem bounded {N : Module → Prop} {R : Module → Module → Prop} (refl : ∀ m, R m m)
    (touch : ∀ k, target = some k → ∀ m, R m (m.touch k))
    (done : ∀ m a m', N m' → e.apply m = (.ok a, m') → R m m') : e.Meets (.bounded N R) := by
  refine meets_bounded.mpr ⟨he.grows, fun m within => ?_⟩
  rcases ran : e.apply m with ⟨fault | a, m'⟩
  · rcases (he.refuses m).failed fault m' ran with rfl | ⟨k, aims, rfl⟩
    · exact refl _
    · exact touch k aims m
  · rw [ran] at within
    exact done m a m' within ran

/-- Changes may follow. -/
theorem bind_changes {f : α → Edit β} (hf : ∀ a, (f a).Changes) : (e >>= f).Staged target := by
  induction he with
  | changes he => exact .changes (he.bind hf)
  | check_bind strict quiet _ ih =>
    rw [bind_assoc]
    exact .check_bind strict quiet fun a => ih a hf
  | get_bind quiet _ ih =>
    rw [bind_assoc]
    refine .get_bind (fun m => ?_) fun m => ih m hf
    rw [quiet]
  | start_bind aims _ ih =>
    rw [bind_assoc]
    exact .start_bind aims fun b => ih b hf

end

end Staged

theorem Changes.staged (he : e.Changes) : e.Staged none := .changes he

theorem Changes.grows (he : e.Changes) : e.Grows := he.staged.grows

namespace Refuses

theorem of_eq (h : e.Refuses target) (failed : e.apply m = (.error fault, m')) :
    m' = m ∨ ∃ k, target = some k ∧ m' = m.touch k :=
  (h m).failed fault m' failed

/-- Without a target, nothing has changed. -/
theorem eq_of_error (h : e.Refuses none) (failed : e.apply m = (.error fault, m')) : m' = m := by
  rcases h.of_eq failed with same | ⟨k, ⟨⟩, -⟩
  exact same

/-- What holds before and does not depend on the target being touched holds afterwards if it does
whenever the edit succeeds. -/
theorem after {P : Module → Prop} (h : e.Refuses target) (before : P m)
    (touched : ∀ k, target = some k → P (m.touch k))
    (done : ∀ a m', e.apply m = (.ok a, m') → P m') : P (e.apply m).2 := by
  rcases ran : e.apply m with ⟨fault | a, m'⟩
  · rcases h.of_eq ran with rfl | ⟨k, aims, rfl⟩
    · exact before
    · exact touched k aims
  · exact done a m' ran

end Refuses

theorem Strict.strict_fst (h : e.Strict) (m : Module) : Graft.Strict (e.apply m).1 := by
  intro fault failed
  exact (h m).failed fault _ (Prod.ext failed rfl)

namespace Built

/-- What all stages do, and what holds of a whole if it does of the parts, the edit does. -/
theorem meets {C : Contract} [C.Chains]
    (stages : ∀ {α : Type} {target : Option MethodId} {e : Edit α}, e.Staged target → e.Meets C)
    (he : e.Built) : e.Meets C := by
  induction he with
  | stage he => exact stages he
  | get_bind _ _ ih => exact .get_bind ih
  | bind _ _ ih ih' => exact .bind ih ih'

theorem grows (he : e.Built) : e.Grows := he.meets Staged.grows

theorem strict (he : e.Built) : e.Strict := he.meets Staged.strict

theorem discard (he : e.Built) : (discard e : Edit Unit).Built :=
  .bind he fun _ => .stage (Changes.pure ()).staged

end Built

/-! ## What counts as touched before -/

section

variable (same : m.SameContent m')
include same

theorem eq_of_quiet {γ : Type} {f : Module → γ} (quiet : ∀ m : Module, f m.clearTouched = f m) :
    f m' = f m := by
  rw [← quiet m', ← quiet m, same]

theorem Changes.goesAlong (he : e.Changes) : e.GoesAlong SameContent m m' := by
  induction he generalizing m m' with
  | pure a => exact .pure same a
  | @update f _ quiet =>
    refine .update ?_
    rw [SameContent, ← quiet m, ← quiet m', same]
  | alloc k code =>
    have content : m.clearTouched = m'.clearTouched := same
    have arena := congrArg Module.arena content
    change m.arena = m'.arena at arena
    constructor
    · simp only [apply_alloc, arena]
    · simp only [apply_alloc, arena]
      exact congrArg (fun d => { d with arena := m'.arena.append k code }) content
  | get_bind quiet _ ih => exact .get_bind (eq_of_quiet same quiet) (ih m same)
  | bind _ _ ih ih' => exact .bind (ih same) fun a m₁ m₁' same => ih' a same

theorem goesAlong_start : (start k).GoesAlong SameContent m m' := by
  refine .check_bind (eq_of_quiet same (f := (·.body k)) fun _ => rfl) same fun b _ => ?_
  refine .bind (.update ?_) fun _ _ _ same => .pure same b
  exact congrArg (·.clearTouched) same

theorem Staged.goesAlong (he : e.Staged target) : e.GoesAlong SameContent m m' := by
  induction he generalizing m m' with
  | changes he => exact he.goesAlong same
  | check_bind _ quiet _ ih =>
    exact .check_bind (eq_of_quiet same quiet) same fun a _ => ih a same
  | get_bind quiet _ ih => exact .get_bind (eq_of_quiet same quiet) (ih m same)
  | start_bind _ _ ih => exact .bind (goesAlong_start same) fun b m₁ m₁' same => ih b same

theorem Built.goesAlong (he : e.Built) : e.GoesAlong SameContent m m' := by
  induction he generalizing m m' with
  | stage he => exact he.goesAlong same
  | get_bind quiet _ ih => exact .get_bind (eq_of_quiet same quiet) (ih m same)
  | bind _ _ ih ih' => exact .bind (ih same) fun a m₁ m₁' same => ih' a same

end

/-! ## Steps that change -/

theorem changes_setBody (b : LiveBody) : (setBody k b).Changes :=
  .update (fun _ => le_modifyMethod) fun _ => rfl

theorem changes_release (ids : List InsnId) : (release ids).Changes := by
  refine .update (fun m => ⟨le_rfl, ?_, fun _ => id⟩) fun _ => rfl
  simp

theorem changes_modifyInstructions (ids : List InsnId)
    (f : Instruction InsnId → Instruction InsnId) : (modifyInstructions ids f).Changes := by
  refine .update (fun m => ⟨le_rfl, ?_, fun _ => id⟩) fun _ => rfl
  simp

theorem changes_finish : (finish k).Changes := by
  refine .update (fun _ => le_raiseMaxStack) fun m => ?_
  have body : m.clearTouched.body? k = m.body? k := rfl
  have depth : m.clearTouched.simulate k = m.simulate k := rfl
  unfold raiseMaxStack
  rw [body, depth]
  cases m.body? k <;> cases m.simulate k <;> rfl

/-- The end of all edits of code. -/
theorem changes_setBody_finish {b : LiveBody} {a : α} :
    (do setBody k b; finish k; return a).Changes := by
  refine .bind (changes_setBody b) fun _ => ?_
  exact .bind changes_finish fun _ => .pure a

/-- A question at the end. -/
theorem staged_check {f : Module → Except Fault α} (strict : ∀ m, Graft.Strict (f m))
    (quiet : ∀ m : Module, f m.clearTouched = f m) : (check f).Staged target := by
  rw [← bind_pure (check f)]
  exact .check_bind strict quiet fun a => .changes (.pure a)

/-! ## Edits of one body -/

theorem staged_insertAt : (insertAt k p i).Staged (some k) := by
  refine .start_bind rfl fun b => ?_
  refine .check_bind (fun _ => strict_checkPosition) (fun _ => rfl) fun _ => ?_
  refine .check_bind (fun _ => strict_checkPlacement) (fun _ => rfl) fun _ => ?_
  exact .changes (.bind (.alloc k [i]) fun ids => changes_setBody_finish)

theorem staged_append {code : List (Instruction InsnId)} : (append k code).Staged (some k) := by
  refine .start_bind rfl fun b => ?_
  refine .check_bind (fun m => ?_) (fun _ => rfl) fun _ => ?_
  · exact .forM (fun (_, _) => strict_checkPlacement) _
  · exact .changes (.bind (.alloc k code) fun ids => changes_setBody_finish)

theorem staged_removeRange : (removeRange k first last).Staged (some k) := by
  refine .start_bind rfl fun b => ?_
  refine .check_bind (fun _ => strict_checkRemovable) (fun _ => rfl) fun _ => ?_
  refine .check_bind (fun _ => strict_checkNoJumpsInto) (fun _ => rfl) fun _ => ?_
  refine .check_bind (fun _ => strict_survivors) (fun _ => rfl) fun ranges => .changes ?_
  refine .bind (changes_setBody _) fun _ => .bind (changes_release _) fun _ => ?_
  exact .bind changes_finish fun _ => .pure _

theorem staged_replaceAt : (replaceAt k p i).Staged (some k) := by
  refine .start_bind rfl fun b => ?_
  refine .check_bind (fun _ => strict_handleAt) (fun _ => rfl) fun old => ?_
  refine .check_bind (fun _ => strict_checkPlacement) (fun _ => rfl) fun _ => .changes ?_
  refine .bind (.alloc k [i]) fun ids => .bind (changes_setBody _) fun _ => ?_
  refine .bind (changes_release _) fun _ => .bind (changes_modifyInstructions _ _) fun _ => ?_
  exact .bind changes_finish fun _ => .pure _

theorem staged_assign {id : InsnId} : (assign k id i).Staged (some k) := by
  refine .start_bind rfl fun b => ?_
  cases b.positionOf? id with
  | none => exact staged_check (fun _ => .error rfl) fun _ => rfl
  | some position =>
    refine .check_bind (fun _ => strict_checkPlacement) (fun _ => rfl) fun _ => .changes ?_
    exact .bind (changes_modifyInstructions _ _) fun _ => changes_finish

theorem staged_assignAt : (assignAt k p i).Staged (some k) := by
  refine .start_bind rfl fun b => ?_
  exact .check_bind (fun _ => strict_handleAt) (fun _ => rfl) fun id => staged_assign

theorem staged_splice {f : Fragment} : (splice k p f).Staged (some k) := by
  refine .start_bind rfl fun b => ?_
  refine .check_bind (fun _ => strict_checkPosition) (fun _ => rfl) fun _ => ?_
  refine .check_bind (fun m => ?_) (fun _ => rfl) fun _ => ?_
  · exact .forM (fun j => (Tables.plain_checkOperands k b.locals.length j).strict) f.code
  · refine .get_bind (fun _ => rfl) fun m => .changes ?_
    exact .bind (.alloc k _) fun ids => changes_setBody_finish

theorem staged_copyRange : (copyRange k source first last p).Staged (some k) := by
  rw [copyRange, discard_then]
  refine .start_bind rfl fun b => ?_
  exact .check_bind (fun _ => strict_extract) (fun _ => rfl) fun f => staged_splice

theorem staged_pad : (pad k p count).Staged (some k) := by
  refine .start_bind rfl fun b => ?_
  refine .check_bind (fun _ => strict_checkPosition) (fun _ => rfl) fun _ => ?_
  exact .check_bind (fun _ => strict_checkPadding) (fun _ => rfl) fun _ => staged_splice

theorem staged_addLocal {type : TypeSig} : (addLocal k type).Staged (some k) := by
  refine .start_bind rfl fun b => ?_
  refine .check_bind (fun _ => (Tables.plain_checkOperandType type).strict) (fun _ => rfl) ?_
  refine fun _ => .check_bind (fun _ => strict_checkLocalsLeft) (fun _ => rfl) fun _ => ?_
  exact .changes (.bind (changes_setBody _) fun _ => .pure _)

theorem staged_declareMaxStack {depth : UInt16} :
    (declareMaxStack k depth).Staged (some k) :=
  .start_bind rfl fun _ => .changes (changes_setBody _)

theorem staged_resetBody {fresh : LiveBody} : (resetBody k fresh).Staged (some k) := by
  refine .start_bind rfl fun b => .changes ?_
  exact .bind (changes_release b.code) fun _ => changes_setBody fresh

theorem staged_placeCall {call : List (Instruction Empty)} :
    (placeCall k callee call).Staged (some k) :=
  .get_bind (fun _ => rfl) fun _ => staged_splice

/-! ## Declarations -/

theorem changes_enter {f : Module → Module} {a : α} (le : ∀ m : Module, m.Le (f m))
    (quiet : ∀ m : Module, (f m.clearTouched).clearTouched = (f m).clearTouched) :
    (do update f; return a).Changes :=
  .bind (.update le quiet) fun _ => .pure a

theorem staged_addType {flags : TypeFlags} : (addType space name flags).Staged none := by
  refine .check_bind (fun _ => Tables.strict_requireNamespace space) (fun _ => rfl) fun _ => ?_
  refine .check_bind (fun _ => Tables.strict_requireName name) (fun _ => rfl) fun _ => ?_
  refine .check_bind (fun _ => strict_checkNewType) (fun _ => rfl) fun _ => ?_
  refine .get_bind (fun _ => rfl) fun m => .changes (changes_enter (fun m => ?_) fun _ => rfl)
  exact ⟨by simp, le_rfl, fun _ => id⟩

theorem staged_addNestedType {flags : TypeFlags} :
    (addNestedType outer name flags).Staged none := by
  refine .check_bind (fun _ => Tables.strict_requireName name) (fun _ => rfl) fun _ => ?_
  refine .check_bind (fun _ => strict_checkNewNestedType) (fun _ => rfl) fun _ => ?_
  refine .get_bind (fun _ => rfl) fun m => .get_bind (fun _ => rfl) fun m => ?_
  refine .changes (changes_enter (fun m => ?_) fun _ => rfl)
  exact ⟨by simp, le_rfl, fun _ => id⟩

theorem staged_addField {flags : FieldFlags} {type : TypeSig} :
    (addField owner name flags type).Staged none := by
  refine .check_bind (fun _ => Tables.strict_requireName name) (fun _ => rfl) fun _ => ?_
  refine .check_bind (fun _ => strict_checkNewField) (fun _ => rfl) fun _ => ?_
  refine .get_bind (fun _ => rfl) fun m => .changes (changes_enter (fun m => ?_) fun _ => rfl)
  exact ⟨by simp, le_rfl, fun _ => id⟩

theorem staged_addMethod {flags : MethodFlags} {signature : MethodSig} :
    (addMethod owner name flags signature).Staged none := by
  refine .check_bind (fun _ => Tables.strict_requireName name) (fun _ => rfl) fun _ => ?_
  refine .get_bind (fun _ => rfl) fun m => .get_bind (fun _ => rfl) fun m => ?_
  refine .changes (changes_enter (fun m => ?_) fun _ => rfl)
  exact ⟨by simp, le_rfl, fun _ => id⟩

theorem changes_copyLocals {d : Method LiveBody} : (copyLocals d k).Changes := by
  refine .get_bind (fun _ => rfl) fun m => ?_
  split
  · exact .bind (changes_setBody _) fun _ => .pure k
  · exact .pure k

theorem staged_cloneSignature : (cloneSignature owner template name).Staged none := by
  rw [cloneSignature_eq]
  refine .get_bind (fun _ => rfl) fun m => ?_
  cases m.method? template with
  | none => exact staged_check (fun _ => .error rfl) fun _ => rfl
  | some d => exact staged_addMethod.bind_changes fun k => changes_copyLocals

/-! ## Whole methods -/

theorem built_check {f : Module → Except Fault α} (strict : ∀ m, Graft.Strict (f m))
    (quiet : ∀ m : Module, f m.clearTouched = f m) : (check f).Built := by
  have staged : (check f).Staged none := staged_check strict quiet
  exact .stage staged

theorem built_body : (check (·.body k)).Built := built_check (fun _ => strict_body) fun _ => rfl

theorem built_returnLiteral {value : Literal TypeId} : (returnLiteral k value).Built := by
  refine .bind built_body.discard fun _ => ?_
  refine .bind (built_check (fun _ => strict_checkReturns) fun _ => rfl) fun _ => ?_
  refine .bind (built_check (fun _ => value.strict_push) fun _ => rfl) fun push => ?_
  exact .bind (.stage staged_resetBody) fun _ => .stage staged_append

theorem built_copyBody : (copyBody source k).Built := by
  refine .bind (built_check (fun _ => strict_checkSameShape) fun _ => rfl) fun _ => ?_
  refine .bind built_body.discard fun _ => ?_
  refine .bind (built_check (fun _ => strict_wholeBody) fun _ => rfl) fun (f, rest) => ?_
  exact .bind (.stage staged_resetBody) fun _ => .stage staged_splice

theorem built_injectCall : (injectCall k callee).Built := by
  rw [injectCall_eq]
  refine .bind built_body.discard fun _ => ?_
  refine .bind (built_check (fun _ => strict_checkInjectable) fun _ => rfl) fun _ => ?_
  refine .bind (built_check (fun _ => strict_receiver?) fun _ => rfl) fun receiver => ?_
  cases receiver with
  | none => exact .stage staged_placeCall
  | some receiver => exact .bind (.stage staged_addLocal) fun slot => .stage staged_placeCall

/-! ## Any contract that the parts meet -/

section Composites

variable {C : Contract}

theorem meets_placeCall {call : List (Instruction Empty)}
    (splice : ∀ code, (splice k 0 (.straight code)).Meets C) :
    (placeCall k callee call).Meets C :=
  .get_bind fun _ => splice _

variable [C.Idle] [C.Chains]

theorem meets_start (touch : ∀ m, C.done m (m.touch k)) : (start k).Meets C := by
  refine .check_bind (fun _ => strict_body) fun m b _ => ?_
  exact Meets.bind (.update touch) (fun _ => .pure b) m

theorem meets_assignAt (start : (start k).Meets C) (assign : ∀ id, (assign k id i).Meets C) :
    (assignAt k p i).Meets C := by
  refine .bind start fun b => ?_
  exact .check_bind (fun _ => strict_handleAt) fun m id _ => assign id m

/-- The fragment comes out of the module as it is. -/
theorem meets_copyRange (start : (start k).Meets C)
    (splice : ∀ m f, m.extract source first last = .ok f → (splice k p f).MeetsAt C m) :
    (copyRange k source first last p).Meets C := by
  refine .bind start.discard fun _ => ?_
  exact .check_bind (fun _ => strict_extract) splice

theorem meets_pad (start : (start k).Meets C) (splice : (splice k p (.padding count)).Meets C) :
    (pad k p count).Meets C := by
  refine .bind start fun b => ?_
  refine .check_bind (fun _ => strict_checkPosition) fun m _ _ => ?_
  refine .check_bind (fun fault answer => ?_) fun _ _ => splice m
  exact Contract.Idle.failed fault (strict_checkPadding fault answer) m

theorem meets_returnLiteral {value : Literal TypeId} (reset : (resetBody k Body.empty).Meets C)
    (append : ∀ code, (append k code).Meets C) : (returnLiteral k value).Meets C := by
  refine .bind (Meets.check fun _ => strict_body).discard fun _ => ?_
  refine .bind (.check fun _ => strict_checkReturns) fun _ => ?_
  refine .bind (.check fun _ => value.strict_push) fun push => ?_
  exact .bind reset fun _ => append [push, .ret]

/-- So do the fragment and the rest of a body. -/
theorem meets_copyBody (rebuild : ∀ m f rest, m.wholeBody source = .ok (f, rest) →
    (do resetBody k rest; splice k 0 f).MeetsAt C m) : (copyBody source k).Meets C := by
  refine .bind (.check fun _ => strict_checkSameShape) fun _ => ?_
  refine .bind (Meets.check fun _ => strict_body).discard fun _ => ?_
  exact .check_bind (fun _ => strict_wholeBody) fun m (f, rest) whole => rebuild m f rest whole

theorem meets_injectCall (addLocal : ∀ type, (addLocal k type).Meets C)
    (splice : ∀ code, (splice k 0 (.straight code)).Meets C) : (injectCall k callee).Meets C := by
  rw [injectCall_eq]
  refine .bind (Meets.check fun _ => strict_body).discard fun _ => ?_
  refine .bind (.check fun _ => strict_checkInjectable) fun _ => ?_
  refine .bind (.check fun _ => strict_receiver?) fun receiver => ?_
  cases receiver with
  | none => exact meets_placeCall splice
  | some receiver => exact .bind (addLocal _) fun slot => meets_placeCall splice

end Composites

end Edit

end Graft
