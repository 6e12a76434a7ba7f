import Graft.Edit.Whole

/-!
# The faults of questions

Which faults the questions can fail with that edits ask before they change a module. None of them
says that a name is missing, so none of them lets a batch skip a patch. Verification, moreover, says
that a body declares too little stack only when all else is in order.
-/

namespace Graft

variable {α β γ : Type}

/-! ## Checks -/

/-- A step that may fail and what follows it fail together if one of them does. -/
theorem bind_eq_error {ε : Type} {x : Except ε α} {f : α → Except ε β} {fault : ε} :
    x >>= f = .error fault ↔ x = .error fault ∨ ∃ a, x = .ok a ∧ f a = .error fault := by
  cases x <;> simp [bind, Except.bind]

/-- All faults of the computation have the property. -/
def Faults (P : Fault → Prop) (x : Except Fault α) : Prop := ∀ fault, x = .error fault → P fault

namespace Faults

variable {P Q : Fault → Prop}

theorem ok (a : α) : Faults P (.ok a) := nofun

theorem error {fault : Fault} (h : P fault) : Faults P (.error fault : Except Fault α) := by
  rintro _ ⟨⟩
  exact h

theorem mono {x : Except Fault α} (hx : Faults P x) (h : ∀ fault, P fault → Q fault) :
    Faults Q x := fun fault failed => h fault (hx fault failed)

theorem ite {c : Prop} [Decidable c] {x y : Except Fault α} (hx : Faults P x) (hy : Faults P y) :
    Faults P (if c then x else y) := by
  split
  · exact hx
  · exact hy

theorem bind {x : Except Fault α} {f : α → Except Fault β} (hx : Faults P x)
    (hf : ∀ a, Faults P (f a)) : Faults P (x >>= f) := by
  cases x with
  | error fault => exact error (hx fault rfl)
  | ok a => exact hf a

theorem map {x : Except Fault α} (hx : Faults P x) (f : α → β) : Faults P (x.map f) := by
  cases x with
  | error fault => exact error (hx fault rfl)
  | ok a => exact ok (f a)

theorem discard {x : Except Fault α} (hx : Faults P x) :
    Faults P (discard x : Except Fault Unit) := by
  cases x with
  | error fault => exact error (hx fault rfl)
  | ok a => exact ok ()

theorem forM {f : α → Except Fault Unit} (h : ∀ a, Faults P (f a)) (as : List α) :
    Faults P (as.forM f) := by
  induction as with
  | nil => exact ok ()
  | cons a as ih => exact .bind (h a) fun _ => ih

theorem mapM {f : α → Except Fault β} (h : ∀ a, Faults P (f a)) (as : List α) :
    Faults P (as.mapM f) := by
  induction as with
  | nil => exact ok []
  | cons a as ih =>
    rw [List.mapM_cons]
    exact .bind (h a) fun _ => .bind ih fun _ => ok _

theorem foldlM {f : β → α → Except Fault β} (h : ∀ b a, Faults P (f b a)) (as : List α) (b : β) :
    Faults P (as.foldlM f b) := by
  induction as generalizing b with
  | nil => exact ok b
  | cons a as ih =>
    rw [List.foldlM_cons]
    exact .bind (h b a) ih

end Faults

section Labels

variable {L L' : Type} {P : Fault → Prop} {f : L → Except Fault L'} (h : ∀ l, Faults P (f l))
include h

theorem Instruction.faults_mapLabelsM (i : Instruction L) : Faults P (i.mapLabelsM f) := by
  cases i with
  | br target | brIf _ target | brCmp _ target | leave target => exact (h target).map _
  | switch targets => exact (Faults.mapM h targets).map _
  | _ => exact .ok _

theorem HandlerKind.faults_mapLabelsM (kind : HandlerKind L) : Faults P (kind.mapLabelsM f) := by
  cases kind with
  | filter start => exact (h start).map _
  | _ => exact .ok _

theorem ExceptionRange.faults_mapLabelsM (r : ExceptionRange L) : Faults P (r.mapLabelsM f) := by
  refine .bind (HandlerKind.faults_mapLabelsM h r.kind) fun kind => ?_
  refine .bind (h r.tryStart) fun tryStart => ?_
  refine .bind (h r.tryEnd) fun tryEnd => ?_
  refine .bind (h r.handlerStart) fun handlerStart => ?_
  exact .bind (h r.handlerEnd) fun handlerEnd => .ok _

end Labels

theorem Simulation.faults_visit {P : Fault → Prop} {machine : Simulation.Machine}
    {clash : Nat → Nat → Nat → Fault} (hm : ∀ p depth, Faults P (machine p depth))
    (hc : ∀ p expected found, P (clash p expected found))
    (depths : Array (Option Nat)) (deepest : Nat) (pending : List (Nat × Nat)) :
    Faults P (Simulation.visit machine clash depths deepest pending) := by
  fun_induction Simulation.visit machine clash depths deepest pending with
  | case1 => exact .ok _
  | case2 => assumption
  | case3 => exact .error (hc _ _ _)
  | case4 depths deepest p depth pending hp fresh fault step => exact .error (hm p depth fault step)
  | case5 => assumption
  | case6 => assumption

/-! ## Verification -/

/-- The fault is no missing name, and does not say that a body needs a deeper stack than it
declares. -/
def Fault.isPlain : Fault → Bool
  | symbolNotFound _ => false
  | maxStackExceeded _ _ _ => false
  | _ => true

/-- All faults of the computation are plain. -/
def Plain (x : Except Fault α) : Prop := Faults (·.isPlain) x

namespace Tables

variable {t : Tables μ β} {L : Type}

theorem plain_checkOperandType (s : TypeSig) : Plain (t.checkOperandType s) := by
  unfold checkOperandType
  split
  · exact Faults.error rfl
  · exact Faults.ok ()

theorem plain_checkOperands (k : MethodId) (locals : Nat) (i : Instruction L) :
    Plain (t.checkOperands k locals i) := by
  cases i with
  | loc access x => exact Faults.ite (.error rfl) (.ok ())
  | arg access x => exact Faults.ite (.error rfl) (.ok ())
  | field access id => exact Faults.ite (.error rfl) (.ok ())
  | call form id => exact Faults.ite (.error rfl) (.ok ())
  | typed op s => exact plain_checkOperandType s
  | _ => exact Faults.ok ()

end Tables

namespace Module

variable {m : Module} {k : MethodId} {b : LiveBody} {p : Nat}

theorem plain_body : Plain (m.body k) := by
  unfold body
  split
  · exact Faults.ok _
  · exact Faults.error rfl

theorem plain_checkTargets {i : Instruction InsnId} : Plain (m.checkTargets k b p i) := by
  unfold checkTargets
  split
  · exact Faults.error rfl
  · exact Faults.ok ()

theorem plain_stackStep {code : Array InsnId} {positions : Positions} {depth : Nat} :
    Plain (m.stackStep k code positions p depth) := by
  unfold stackStep
  simp only
  split
  · refine Faults.ite (.error rfl) (.ite (.error rfl) ?_)
    refine .bind (.mapM (fun l => ?_) _) fun jumps => .ite (.ite (.error rfl) (.ok _)) (.ok _)
    split
    · exact .ok _
    · exact .error rfl
  · exact Faults.error rfl

theorem plain_rangeEntries {positions : Positions} : Plain (m.rangeEntries k positions b) := by
  refine Faults.bind (.mapM (fun (r, n) => .mapM (fun (id, depth) => ?_) _) _) fun _ => .ok _
  dsimp only
  split
  · exact .ok _
  · exact .error rfl

theorem plain_simulate : Plain (m.simulate k) := by
  refine Faults.bind plain_body fun b => .ite (.error rfl) ?_
  refine .bind plain_rangeEntries fun entries => ?_
  exact Simulation.faults_visit (fun _ _ => plain_stackStep) (fun _ _ _ => rfl) _ _ _

theorem plain_checkCode : Plain (m.checkCode k b) := by
  refine Faults.discard (.foldlM (fun seen (id, p) => .ite (.error rfl) ?_) _ _)
  split
  · refine .bind (Tables.plain_checkOperands _ _ _) fun _ => ?_
    exact .bind plain_checkTargets fun _ => .ok _
  · exact .error rfl

theorem plain_checkRanges : Plain (m.checkRanges k b) := by
  refine Faults.forM (fun (r, n) => ?_) _
  refine .bind (ExceptionRange.faults_mapLabelsM (fun l => ?_) r) fun _ => .ite (.error rfl) (.ok _)
  split
  · exact .ok _
  · exact .error rfl

/-- The one fault of verification that is not plain says that the simulation goes deeper than the
body declares. -/
theorem verifyBody_exceeded {name : String} {declared required : Nat}
    (h : m.verifyBody k = .error (.maxStackExceeded name declared required)) :
    ∃ b, m.body k = .ok b ∧ m.simulate k = .ok required ∧ b.maxStack.toNat < required := by
  rw [verifyBody] at h
  obtain failed | ⟨b, hb, h⟩ := bind_eq_error.mp h
  · cases plain_body _ failed
  split at h
  · cases h
  obtain failed | ⟨_, -, h⟩ := bind_eq_error.mp h
  · cases plain_checkCode _ failed
  obtain failed | ⟨_, -, h⟩ := bind_eq_error.mp h
  · cases plain_checkRanges _ failed
  obtain failed | ⟨r, hs, h⟩ := bind_eq_error.mp h
  · cases plain_simulate _ failed
  split at h
  · rename_i exceeded
    cases h
    exact ⟨b, hb, hs, exceeded⟩
  · cases h

end Module

/-! ## Missing names -/

/-- No fault of the computation is a missing name. -/
def Strict (x : Except Fault α) : Prop := Faults (fun fault => fault.isSoft = false) x

theorem Plain.strict {x : Except Fault α} (hx : Plain x) : Strict x := by
  refine Faults.mono hx fun fault plain => ?_
  cases fault with
  | symbolNotFound symbol => cases plain
  | _ => rfl

namespace Tables

variable {t : Tables μ β}

theorem strict_requireName (name : String) : Strict (requireName name) := by
  unfold requireName
  cases checkName name with
  | error flaw => exact .error rfl
  | ok _ => exact .ok _

theorem strict_requireNamespace (space : String) : Strict (requireNamespace space) := by
  unfold requireNamespace
  cases checkNamespace space with
  | error flaw => exact .error rfl
  | ok _ => exact .ok _

theorem strict_requireConstructor {t : Tables Members β} (owner : TypeId) :
    Strict (t.requireConstructor owner) := by
  unfold requireConstructor
  split
  · exact .ok _
  · exact .error rfl

end Tables

theorem Literal.strict_push {t : Tables Members β} (value : Literal TypeId) :
    Strict (value.push t) := by
  cases value with
  | fresh id => exact .bind (Tables.strict_requireConstructor id) fun _ => .ok _
  | _ => exact .ok _

namespace Module

variable {m : Module} {k source target callee : MethodId} {b : LiveBody} {p first last : Nat}

theorem strict_body : Strict (m.body k) := plain_body.strict

theorem strict_checkPosition : Strict (m.checkPosition k b p) :=
  .ite (.ok ()) (.error rfl)

theorem strict_handleAt : Strict (m.handleAt k b p) := by
  unfold handleAt
  split
  · exact .ok _
  · exact .error rfl

theorem strict_checkPlacement {i : Instruction InsnId} : Strict (m.checkPlacement k b p i) :=
  .bind (Tables.plain_checkOperands k b.locals.length i).strict fun _ => plain_checkTargets.strict

theorem strict_checkRemovable : Strict (m.checkRemovable k b first last) :=
  .ite (.error rfl) (.ite (.error rfl) (.ok ()))

theorem strict_checkNoJumpsInto {removed : List InsnId} :
    Strict (m.checkNoJumpsInto k b first last removed) := by
  refine .forM (fun (id, p) => .ite (.ok ()) ?_) _
  split
  · exact .error rfl
  · exact .ok ()

theorem strict_survivors {removed : List InsnId} : Strict (m.survivors k b removed) := by
  refine .bind (.mapM (fun (r, n) => .bind ?_ fun _ => .ok _) _) fun _ => .ok _
  exact .ite (.ok _) (.ite (.error rfl) (.ok _))

theorem strict_checkLocalsLeft : Strict (m.checkLocalsLeft k b) :=
  .ite (.ok ()) (.error rfl)

/-! ## Lifting -/

theorem strict_liftInstruction {inside : Positions} {id : InsnId} :
    Strict (m.liftInstruction k inside id p) := by
  unfold liftInstruction
  split
  · exact .error rfl
  · refine Instruction.faults_mapLabelsM (fun l => ?_) _
    split
    · exact .ok _
    · exact .error rfl

theorem strict_liftRange? {inside : Positions} {r : ExceptionRange InsnId} :
    Strict (m.liftRange? k inside r p) := by
  refine .ite (.ok _) (.map (ExceptionRange.faults_mapLabelsM (fun l => ?_) _) _)
  split
  · exact .ok _
  · exact .error rfl

theorem strict_extract : Strict (m.extract k first last) := by
  refine .bind strict_body fun b => ?_
  refine .bind (.ite (.error rfl) (.ite (.error rfl) (.ok ()))) fun _ => ?_
  dsimp only
  -- the instructions are lifted first, then the ranges
  split
  · rename_i fault failed
    exact .error (Faults.mapM (fun (id, p) => strict_liftInstruction) _ fault failed)
  · split
    · rename_i fault failed
      exact .error (Faults.mapM (fun (r, n) => strict_liftRange?) _ fault failed)
    · exact .ok _

theorem strict_wholeBody : Strict (m.wholeBody k) := by
  refine .bind strict_body fun b => ?_
  exact .ite (.error rfl) (.bind strict_extract fun _ => .ok _)

/-! ## Names that are taken -/

theorem strict_checkNewType {name : String} : Strict (m.checkNewType name) :=
  .ite (.error rfl) (.ok ())

theorem strict_checkNewNestedType {outer : TypeId} {name : String} :
    Strict (m.checkNewNestedType outer name) := by
  unfold checkNewNestedType
  split
  · exact .error rfl
  · exact .ok ()

theorem strict_checkNewField {owner : TypeId} {name : String} :
    Strict (m.checkNewField owner name) := by
  unfold checkNewField
  split
  · exact .error rfl
  · exact .ok ()

/-! ## Whole methods -/

theorem strict_checkPadding {position count : Nat} : Strict (m.checkPadding k b position count) :=
  .ite (.ok ()) (.error rfl)

theorem strict_checkReturns {value : Literal TypeId} : Strict (m.checkReturns k value) :=
  .ite (.ok ()) (.error rfl)

theorem strict_checkSameShape : Strict (m.checkSameShape source target) :=
  .ite (.ok ()) (.error rfl)

theorem strict_checkInjectable : Strict (m.checkInjectable callee) :=
  .ite (.ok ()) (.error rfl)

theorem strict_receiver? : Strict (m.receiver? callee) := by
  unfold receiver?
  split
  · exact .ite (.ok _) (.bind (Tables.strict_requireConstructor _) fun _ => .ok _)
  · exact .ok _

/-! ## Verification -/

theorem strict_verifyBody : Strict (m.verifyBody k) := by
  refine .bind strict_body fun b => .ite (.error rfl) ?_
  refine .bind plain_checkCode.strict fun _ => ?_
  refine .bind plain_checkRanges.strict fun _ => ?_
  exact .bind plain_simulate.strict fun depth => .ite (.error rfl) (.ok depth)

theorem strict_verifyBodies {ks : List MethodId} : Strict (m.verifyBodies ks) :=
  .forM (fun _ => strict_verifyBody.discard) ks

end Module

end Graft
