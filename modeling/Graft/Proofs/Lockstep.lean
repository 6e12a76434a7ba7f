import Graft.Proofs.Batches
import Graft.Proofs.Opening
import Graft.Proofs.Uniformity

/-!
# Batches on twins

Run on twins, a batch goes the same way: the same patches are applied and skipped, and after each of
them the modules are twins again. Run on one storable module, it keeps the module storable all the
way, so it can be tidied up in the end.
-/

namespace Graft.Batch

open Graft.Module

variable {m m' : Module} {operations : List Plan.Operation} {report : Report}

/-! ## Steps -/

/-- Verification looks at nothing that twins differ in. -/
theorem agree_verifyTouched (h : Twin m m') : Edit.Agree m m' verifyTouched verifyTouched := by
  refine .check h (.of_strict strict_verifyBodies strict_verifyBodies fun _ => ?_)
  rw [h.touched]
  exact h.verifyBodies

/-- What one attempt does to twins. It leaves twins also if it fails, since then it is undone. -/
theorem twin_attempt (h : Twin m m') {o : Plan.Operation} (unlabelled : o.Unlabelled)
    (room : ((Edit.operation o).apply m).2.arena.size ≤ Arena.capacity) :
    Accord ((attempt (.ofOperation o)).apply m).1 ((attempt (.ofOperation o)).apply m').1 ∧
      Twin ((attempt (.ofOperation o)).apply m).2 ((attempt (.ofOperation o)).apply m').2 := by
  have agree : Edit.Agree m m' (Edit.operation o >>= fun _ => verifyTouched)
      (Edit.operation o >>= fun _ => verifyTouched) :=
    .bind (Edit.agree_operation h unlabelled)
      (fun _ => Edit.Meets.check fun _ => strict_verifyBodies)
      fun _ m₁ m₁' _ h => agree_verifyTouched h
  have same : ((Edit.operation o >>= fun _ => verifyTouched).apply m).2 =
      ((Edit.operation o).apply m).2 := by
    rw [Edit.apply_bind]
    rcases (Edit.operation o).apply m with ⟨fault | _, m₁⟩ <;> rfl
  obtain ⟨accord, twin⟩ := agree (same ▸ room)
  have edit : (Patch.ofOperation o).edit = Edit.operation o := rfl
  rw [apply_attempt_eq, apply_attempt_eq, edit]
  generalize (Edit.operation o >>= fun _ => verifyTouched).apply m = left at accord twin ⊢
  generalize (Edit.operation o >>= fun _ => verifyTouched).apply m' = right at accord twin ⊢
  obtain ⟨x, m₁⟩ := left
  obtain ⟨x', m₁'⟩ := right
  cases accord with
  | same x =>
    cases x with
    | ok _ => exact ⟨.same _, (twin () rfl).clearTouched⟩
    | error fault =>
      -- the patch is undone, and the modules before it were twins
      exact ⟨.same _, h⟩
  | ending hard hard' => exact ⟨.ending hard hard', h⟩

/-! ## Runs -/

/-- What a run of patches does to twins, also if it is cut short. -/
theorem twin_runFrom (h : Twin m m') (unlabelled : ∀ o ∈ operations, o.Unlabelled)
    (report : Report)
    (room : ∀ d ∈ drafts (operations.map .ofOperation) m, d.arena.size ≤ Arena.capacity) :
    Accord ((runFrom report (operations.map .ofOperation)).apply m).1
        ((runFrom report (operations.map .ofOperation)).apply m').1 ∧
      Twin ((runFrom report (operations.map .ofOperation)).apply m).2
        ((runFrom report (operations.map .ofOperation)).apply m').2 := by
  -- by induction on the operations: the next attempt is made on twins again
  induction operations generalizing m m' report with
  | nil => exact ⟨.same _, h⟩
  | cons o operations ih =>
    rw [List.map_cons, drafts, List.forall_mem_cons] at room
    obtain ⟨first, later⟩ := room
    obtain ⟨bare, unlabelled⟩ := List.forall_mem_cons.mp unlabelled
    obtain ⟨accord, twin⟩ := twin_attempt h bare first
    rw [List.map_cons, apply_runFrom_cons, apply_runFrom_cons]
    generalize (attempt (.ofOperation o)).apply m = left at accord twin later ⊢
    generalize (attempt (.ofOperation o)).apply m' = right at accord twin ⊢
    obtain ⟨x, m₁⟩ := left
    obtain ⟨x', m₁'⟩ := right
    cases accord with
    | same x =>
      cases x with
      | ok _ => exact ih twin unlabelled _ later
      | error fault =>
        by_cases soft : fault.isSoft = true
        · simp only [soft, if_true] at later ⊢
          exact ih twin unlabelled _ later
        · simp only [soft]
          exact ⟨.same _, twin⟩
    | ending hard hard' =>
      simp only [hard, hard']
      exact ⟨.ending hard hard', twin⟩

theorem storable_attempt {o : Plan.Operation} (h : m.Storable) (unlabelled : o.Unlabelled)
    (room : ((Edit.operation o).apply m).2.arena.size ≤ Arena.capacity) :
    ((attempt (.ofOperation o)).apply m).2.Storable :=
  (twin_attempt h.twin_self unlabelled room).2.storable

/-- A run of patches keeps a module storable. -/
theorem storable_runFrom (h : m.Storable) (unlabelled : ∀ o ∈ operations, o.Unlabelled)
    (report : Report)
    (room : ∀ d ∈ drafts (operations.map .ofOperation) m, d.arena.size ≤ Arena.capacity) :
    ((runFrom report (operations.map .ofOperation)).apply m).2.Storable := by
  refine runFrom_preserves (fun m p hp h room => ?_) report h room
  obtain ⟨o, ho, rfl⟩ := List.mem_map.mp hp
  exact storable_attempt h (unlabelled o ho) room

/-- Nothing counts as touched between two patches. -/
theorem touched_runFrom (report : Report) (patches : List Patch) (h : m.touched = []) :
    ((runFrom report patches).apply m).2.touched = [] := by
  rcases exists_draft report patches m with same | ⟨d, -, same⟩ <;> rw [same]
  · exact h
  · rfl

/-- A storable module is compacted by building it from its file. -/
theorem apply_compact (h : m.Storable) (untouched : m.touched = []) :
    Edit.compact.apply m = (.ok (), m.view.build) := by
  have built : ({ m.view.build with touched := m.touched } : Module) = m.view.build := by
    rw [untouched]
    rfl
  have compacted := h.compacted_eq
  rw [built] at compacted
  exact Edit.apply_check_bind_ok.mpr ⟨_, compacted, rfl⟩

/-- So it is tidied up in this way. -/
theorem tidy_eq (h : m.Storable) (untouched : m.touched = []) :
    (tidy.apply m).2 = m.view.build :=
  congrArg Prod.snd (apply_compact h untouched)

/-- A batch gives the same module and the same report, whichever of two twins it is run on. -/
theorem run_twin (h : Twin m m') (unlabelled : ∀ o ∈ operations, o.Unlabelled)
    (room : ∀ d ∈ drafts (operations.map .ofOperation) m.clearTouched,
      d.arena.size ≤ Arena.capacity) {report : Report} {final : Module} :
    (run (operations.map .ofOperation)).apply m' = (.ok report, final) ↔
      (run (operations.map .ofOperation)).apply m = (.ok report, final) := by
  obtain ⟨accord, twin⟩ := twin_runFrom h.clearTouched unlabelled .empty room
  rw [apply_run, apply_run]
  generalize (runFrom .empty (operations.map .ofOperation)).apply m.clearTouched = left
    at accord twin ⊢
  generalize (runFrom .empty (operations.map .ofOperation)).apply m'.clearTouched = right
    at accord twin ⊢
  obtain ⟨x, draft⟩ := left
  obtain ⟨x', draft'⟩ := right
  cases accord with
  | same x =>
    cases x with
    | ok report' =>
      -- compaction forgets what the drafts differ in
      have tidied : (tidy.apply draft').2 = (tidy.apply draft).2 := by
        rw [apply_tidy, apply_tidy, twin.compacted, twin.storable.compacted_eq]
        rfl
      simp only [tidied]
    | error fault => exact iff_of_false nofun nofun
  | ending hard hard' => exact iff_of_false nofun nofun

/-- A batch of a storable module leaves the module that is built from the file of the last draft. -/
theorem apply_run_ok (h : m.Storable) (unlabelled : ∀ o ∈ operations, o.Unlabelled)
    (room : ∀ d ∈ drafts (operations.map .ofOperation) m.clearTouched,
      d.arena.size ≤ Arena.capacity) :
    (run (operations.map .ofOperation)).apply m = (.ok report, m') ↔
      ∃ draft, (runFrom .empty (operations.map .ofOperation)).apply m.clearTouched =
        (.ok report, draft) ∧ m' = draft.view.build := by
  rw [apply_run]
  have storable := storable_runFrom h.clearTouched unlabelled .empty room
  have touched := touched_runFrom .empty (operations.map .ofOperation) (m := m.clearTouched) rfl
  rcases ran : (runFrom .empty (operations.map .ofOperation)).apply m.clearTouched with
    ⟨fault | result, draft⟩
  · simp
  · rw [ran] at storable touched
    simp only [tidy_eq storable touched, Prod.mk.injEq, Except.ok.injEq]
    constructor
    · rintro ⟨rfl, rfl⟩
      exact ⟨draft, ⟨rfl, rfl⟩, rfl⟩
    · rintro ⟨_, ⟨rfl, rfl⟩, rfl⟩
      exact ⟨rfl, rfl⟩

/-- A storable module fits if its drafts do, since a batch ends with no more slots than the last of
them has. -/
theorem Fits.of_storable {m : Module} {operations : List Plan.Operation} (h : m.Storable)
    (unlabelled : ∀ o ∈ operations, o.Unlabelled)
    (room : ∀ d ∈ Batch.drafts (operations.map .ofOperation) m.clearTouched,
      d.arena.size ≤ Arena.capacity) : Fits (operations.map .ofOperation) m where
  drafts := room
  final := by
    have storable := storable_runFrom h.clearTouched unlabelled .empty room
    have touched := touched_runFrom .empty (operations.map .ofOperation) (m := m.clearTouched) rfl
    rw [snd_apply_run]
    rcases ran : (runFrom .empty (operations.map .ofOperation)).apply m.clearTouched with
      ⟨fault | report, d⟩ <;> rw [ran] at storable touched
    · exact storable.room
    · show (tidy.apply d).2.arena.size ≤ Arena.capacity
      rw [tidy_eq storable touched]
      exact storable.room_build

end Graft.Batch

/-! ## Two operations on the sample -/

namespace Graft.Sample

open Graft.Module

/-- The file once an instruction has been put in front of the body. -/
def padded : ModuleFile :=
  file.setBody ⟨0⟩ { body with
    code := [.nop, .nop, .leave 5, .pop, .leave 5, .ldcI4 7, .ret]
    ranges := [⟨.catching (.primitive .object), 1, 2, 3, 4⟩] }

/-- The body with an instruction in front. -/
def longer : LiveBody := { live with code := .ofIndex 6 :: live.code }

/-- The sample with this body, before it is tidied up. -/
def draft : Module :=
  (file.build.touch ⟨0⟩).withBody ⟨0⟩ longer (file.build.arena.append ⟨0⟩ [.nop])

theorem body?_draft : draft.body? ⟨0⟩ = some longer := rfl

theorem view_draft : draft.view = padded := by decide +kernel

theorem linked_longer : longer.Linked draft.arena where
  nodup := by decide
  targets id hid i hi l hl := by
    have inside : ∀ id ∈ longer.code, (draft.arena.get? id).all fun i =>
      i.targets.all (· ∈ longer.code) := by decide
    have := inside id hid
    simp only [hi, Option.all_some, List.all_eq_true, decide_eq_true_eq] at this
    exact this l hl
  markers := by decide

theorem simulate_draft : draft.simulate ⟨0⟩ = .ok 1 := by
  rw [simulate_eq body?_draft linked_longer (by decide)]
  refine visit_instruction linked_longer (p := 3) (i := .pop) (by decide) (by decide) rfl
    rfl (by decide) ?_
  refine visit_instruction linked_longer (p := 4) (i := .leave (.ofIndex 4)) (by decide)
    (by decide) rfl rfl (by decide) ?_
  refine visit_instruction linked_longer (p := 5) (i := .ldcI4 7) (by decide) (by decide) rfl
    rfl (by decide) ?_
  refine visit_instruction linked_longer (p := 6) (i := .ret) (by decide) (by decide) rfl
    rfl (by decide) ?_
  refine visit_instruction linked_longer (p := 0) (i := .nop) (by decide) (by decide) rfl
    rfl (by decide) ?_
  refine visit_instruction linked_longer (p := 1) (i := .nop) (by decide) (by decide) rfl
    rfl (by decide) ?_
  refine visit_instruction linked_longer (p := 2) (i := .leave (.ofIndex 4)) (by decide)
    (by decide) rfl rfl (by decide) ?_
  exact (Simulation.visit_known (p := 5) (by decide) rfl).trans (Simulation.visit_nil.trans rfl)

theorem rebuilt_longer :
    file.build.rebuilt ⟨0⟩ longer (file.build.arena.append ⟨0⟩ [.nop]) = draft := by
  have deep : draft.raisedDepth ⟨0⟩ longer = longer.maxStack := by
    rw [raisedDepth, simulate_draft]
    rfl
  rw [rebuilt_eq body?_build_zero]
  exact congrArg (fun depth => (file.build.touch ⟨0⟩).withBody ⟨0⟩ { longer with maxStack := depth }
    (file.build.arena.append ⟨0⟩ [.nop])) deep

theorem apply_operation_draft :
    (Edit.operation operation).apply file.build = (.ok (), draft) := by
  have target : (Plan.MethodRef.mk "Counter" "next").resolve file.build.toTables = .ok ⟨0⟩ := by
    decide +kernel
  have inserted := (Edit.apply_insertAt_ok (i := .nop)).mpr ⟨live, body?_build_zero, Nat.zero_le _,
    ⟨.of_none rfl rfl rfl, .of_none rfl rfl, List.forall_mem_nil _⟩, rfl, rebuilt_longer.symm⟩
  exact Edit.apply_check_bind_ok.mpr ⟨_, target, Edit.apply_check_bind_ok.mpr
    ⟨.nop, rfl, Edit.apply_discard_ok.mpr ⟨_, inserted⟩⟩⟩

theorem verified_draft : draft.Verified ⟨0⟩ longer 1 where
  filled := nofun
  owner? := by decide
  sound := by
    refine .of_plain linked_longer (by decide) fun r hr => ?_
    obtain rfl := List.mem_singleton.mp hr
    constructor <;> decide
  simulate := simulate_draft
  declared := by decide

theorem attempt_operation :
    (Batch.attempt (.ofOperation operation)).apply file.build = (.ok (), draft.clearTouched) := by
  have verify : draft.verifyBodies draft.touched = .ok () :=
    verifyBodies_eq_ok.mpr (List.forall_mem_singleton.mpr ⟨_, _, body?_draft, verified_draft⟩)
  rw [Batch.apply_attempt_of_ok (p := .ofOperation operation) apply_operation_draft, verify]

/-- An operation on a method that is not there. -/
def missing : Plan.Operation := .makePublic ⟨"Counter", "gone"⟩

theorem apply_missing :
    (Edit.operation missing).apply draft.clearTouched =
      (.error (.symbolNotFound "Counter::gone"), draft.clearTouched) := by
  have unknown : (Plan.MethodRef.mk "Counter" "gone").resolve draft.clearTouched.toTables =
      .error (.symbolNotFound "Counter::gone") := by decide +kernel
  exact (Edit.apply_check_bind ..).trans (by simp only [unknown])

theorem read_operations : Plan.read "insert Counter next 0 nop\nmake-public Counter gone" =
    .ok [operation, missing] := by decide

theorem ofPlan_operations :
    Batch.ofPlan "insert Counter next 0 nop\nmake-public Counter gone" =
      .ok ([operation, missing].map .ofOperation) := by
  rw [Batch.ofPlan, read_operations]
  rfl

theorem unlabelled : ∀ o ∈ [operation, missing], o.Unlabelled :=
  Plan.unlabelled_of_read read_operations

/-- Of the two operations, the first is applied and the second skipped. -/
def report : Report := ⟨[operation.name], [(missing.name, .symbolNotFound "Counter::gone")]⟩

theorem runFrom_operations :
    (Batch.runFrom .empty ([operation, missing].map .ofOperation)).apply file.build =
      (.ok report, draft.clearTouched) := by
  have skipped := Batch.apply_attempt_of_error (p := .ofOperation missing) apply_missing
  simp only [List.map_cons, Batch.apply_runFrom_cons, attempt_operation, skipped]
  rfl

theorem drafts_operations :
    Batch.drafts ([operation, missing].map .ofOperation) file.build =
      [draft, draft.clearTouched] := by
  have skipped := Batch.apply_attempt_of_error (p := .ofOperation missing) apply_missing
  simp only [List.map_cons, Batch.drafts, attempt_operation, skipped]
  exact congrArg₂ (fun a b => [a, b]) (congrArg Prod.snd apply_operation_draft)
    (congrArg Prod.snd apply_missing)

theorem fits_operations : Batch.Fits ([operation, missing].map .ofOperation) file.build := by
  refine .of_drafts (by decide) fun d hd => ?_
  rw [show file.build.clearTouched = file.build from rfl, drafts_operations] at hd
  have size : draft.arena.size = 7 ∧ draft.instructionCount = 7 := by decide
  have same : d.arena = draft.arena ∧ d.instructionCount = draft.instructionCount := by
    rcases List.mem_pair.mp hd with rfl | rfl <;> exact ⟨rfl, rfl⟩
  rw [same.1, same.2, size.1, size.2]
  decide

theorem run_operations :
    (Batch.run ([operation, missing].map .ofOperation)).apply file.build =
      (.ok report, padded.build) := by
  refine (Batch.apply_run_ok (loaded.storable room) unlabelled fits_operations.drafts).mpr
    ⟨_, runFrom_operations, ?_⟩
  rw [← view_draft]
  rfl

end Graft.Sample
