import Graft.Proofs.Obliviousness
import Graft.Proofs.Splitting

/-!
# Batches are transactions

A patch passes if its edit succeeds and what it touched verifies; otherwise it fails, and nothing is
left of it. The course of a batch tells of each patch whether it was applied or why it was skipped.
A batch that runs to its end has gone through all patches and leaves what the applied ones alone
would have left; one that is cut short leaves what was applied before the patch that failed.
-/

namespace Graft

/-- The soft faults are those about names of what is not there. -/
theorem Fault.exists_of_isSoft {fault : Fault} (h : fault.isSoft = true) :
    ∃ symbol, fault = .symbolNotFound symbol := by
  cases fault <;> first | exact ⟨_, rfl⟩ | cases h

/-! ## Patches -/

namespace Patch

variable {p : Patch} {m m' : Module} {fault : Fault}

/-- The edit succeeds, and what it touched verifies and then counts as touched no more. -/
def Passes (p : Patch) (m m' : Module) : Prop :=
  ∃ d, p.edit.apply m = (.ok (), d) ∧ d.verifyBodies d.touched = .ok () ∧ m' = d.clearTouched

/-- The edit fails, or it succeeds and something that it touched does not verify. -/
def Fails (p : Patch) (m : Module) (fault : Fault) : Prop :=
  (∃ d, p.edit.apply m = (.error fault, d)) ∨
    ∃ d, p.edit.apply m = (.ok (), d) ∧ d.verifyBodies d.touched = .error fault

theorem apply_attempt_ok : (Batch.attempt p).apply m = (.ok (), m') ↔ p.Passes m m' := by
  rcases ran : p.edit.apply m with ⟨fault | _, d⟩
  · rw [Batch.apply_attempt_of_error ran]
    simp [Passes, ran]
  · rw [Batch.apply_attempt_of_ok ran]
    cases h : d.verifyBodies d.touched <;> simp [Passes, ran, h, eq_comm]

/-- A patch that fails is undone, whatever its edit has done. -/
theorem apply_attempt_error :
    (Batch.attempt p).apply m = (.error fault, m') ↔ p.Fails m fault ∧ m' = m := by
  rcases ran : p.edit.apply m with ⟨fault | _, d⟩
  · rw [Batch.apply_attempt_of_error ran]
    simp [Fails, ran, eq_comm]
  · rw [Batch.apply_attempt_of_ok ran]
    cases h : d.verifyBodies d.touched <;> simp [Fails, ran, h, eq_comm]

end Patch

/-! ## Courses -/

namespace Batch

variable {m m' m'' : Module} {c : List (Patch × Option Fault)} {p : Patch} {patches : List Patch}
  {fault : Fault} {report : Report}

/-- The course of a batch from one module to another: its patches in order, each that was skipped
with the reason. -/
inductive Course : Module → List (Patch × Option Fault) → Module → Prop
  | done {m : Module} : Course m [] m
  | applied {p : Patch} {m m' m'' : Module} {c : List (Patch × Option Fault)}
    (passes : p.Passes m m') (rest : Course m' c m'') : Course m ((p, none) :: c) m''
  | skipped {p : Patch} {fault : Fault} {m m' : Module} {c : List (Patch × Option Fault)}
    (fails : p.Fails m fault) (soft : fault.isSoft = true) (rest : Course m c m') :
    Course m ((p, some fault) :: c) m'

/-- The patches that were applied. -/
def kept (c : List (Patch × Option Fault)) : List Patch :=
  c.filterMap fun (p, skipped) => if skipped.isNone then some p else none

/-- What is reported of a course. -/
def reportOf (c : List (Patch × Option Fault)) : Report where
  applied := (kept c).map Patch.name
  skipped := c.filterMap fun (p, skipped) => skipped.map (p.name, ·)

/-- If no patch is skipped, all are kept, and that is all there is to report. -/
theorem kept_map (patches : List Patch) : kept (patches.map (·, none)) = patches := by
  induction patches with
  | nil => rfl
  | cons p patches ih => exact congrArg (p :: ·) ih

theorem reportOf_map (patches : List Patch) :
    reportOf (patches.map (·, none)) = ⟨patches.map Patch.name, []⟩ := by
  rw [reportOf, kept_map, List.filterMap_map]
  exact congrArg _ (List.filterMap_eq_nil_iff.mpr fun _ _ => rfl)

/-- How a run to its end begins. -/
theorem runFrom_cons_ok {rest : List Patch} :
    (runFrom .empty (p :: rest)).apply m = (.ok report, m') ↔
      (∃ d r, p.Passes m d ∧ (runFrom .empty rest).apply d = (.ok r, m') ∧
        report = Report.empty.addApplied p.name ++ r) ∨
      ∃ fault r, p.Fails m fault ∧ fault.isSoft = true ∧
        (runFrom .empty rest).apply m = (.ok r, m') ∧
        report = Report.empty.addSkipped p.name fault ++ r := by
  rw [apply_runFrom_cons]
  constructor
  · intro ran
    rcases tried : (attempt p).apply m with ⟨fault | _, d⟩ <;> rw [tried] at ran
    · obtain ⟨fails, rfl⟩ := Patch.apply_attempt_error.mp tried
      by_cases soft : fault.isSoft = true
      · simp only [soft, if_true] at ran
        obtain ⟨r, rest, same⟩ := apply_runFrom_ok.mp ran
        exact .inr ⟨fault, r, fails, soft, rest, same⟩
      · simp [soft] at ran
    · obtain ⟨r, rest, same⟩ := apply_runFrom_ok.mp ran
      exact .inl ⟨d, r, Patch.apply_attempt_ok.mp tried, rest, same⟩
  · rintro (⟨d, r, passes, ran, same⟩ | ⟨fault, r, fails, soft, ran, same⟩)
    · rw [Patch.apply_attempt_ok.mpr passes]
      exact apply_runFrom_ok.mpr ⟨r, ran, same⟩
    · rw [Patch.apply_attempt_error.mpr ⟨fails, rfl⟩]
      simp only [soft, if_true]
      exact apply_runFrom_ok.mpr ⟨r, ran, same⟩

/-- The run of a batch to its end follows a course, and any course is one of a run. -/
theorem runFrom_eq_ok :
    (runFrom .empty patches).apply m = (.ok report, m') ↔
      ∃ c, c.map Prod.fst = patches ∧ Course m c m' ∧ report = reportOf c := by
  induction patches generalizing m report with
  | nil =>
    constructor
    · rintro ⟨⟩
      exact ⟨[], rfl, .done, rfl⟩
    · rintro ⟨c, none, course, rfl⟩
      obtain rfl := List.map_eq_nil_iff.mp none
      cases course
      rfl
  | cons p rest ih =>
    rw [runFrom_cons_ok]
    constructor
    · rintro (⟨d, r, passes, ran, rfl⟩ | ⟨fault, r, fails, soft, ran, rfl⟩)
      · obtain ⟨c, rfl, course, rfl⟩ := ih.mp ran
        exact ⟨(p, none) :: c, rfl, .applied passes course, rfl⟩
      · obtain ⟨c, rfl, course, rfl⟩ := ih.mp ran
        exact ⟨(p, some fault) :: c, rfl, .skipped fails soft course, rfl⟩
    · rintro ⟨c, same, course, rfl⟩
      cases course with
      | done => cases same
      | applied passes course =>
        obtain ⟨rfl, rfl⟩ := List.cons.inj same
        exact .inl ⟨_, _, passes, ih.mpr ⟨_, rfl, course, rfl⟩, rfl⟩
      | skipped fails soft course =>
        obtain ⟨rfl, rfl⟩ := List.cons.inj same
        exact .inr ⟨_, _, fails, soft, ih.mpr ⟨_, rfl, course, rfl⟩, rfl⟩

/-- The run of a batch that is cut short follows a course to the patch that fails. -/
theorem runFrom_eq_error {report : Report} :
    (runFrom report patches).apply m = (.error fault, m') ↔
      ∃ c p later, patches = c.map Prod.fst ++ p :: later ∧ Course m c m' ∧ p.Fails m' fault ∧
        fault.isSoft = false := by
  induction patches generalizing m report with
  | nil =>
    refine iff_of_false nofun ?_
    rintro ⟨c, p, later, none, -⟩
    simp at none
  | cons p rest ih =>
    rw [apply_runFrom_cons]
    constructor
    · intro ran
      rcases tried : (attempt p).apply m with ⟨fault' | _, d⟩ <;> rw [tried] at ran
      · obtain ⟨fails, rfl⟩ := Patch.apply_attempt_error.mp tried
        by_cases soft : fault'.isSoft = true
        · simp only [soft, if_true] at ran
          obtain ⟨c, last, later, rfl, course, failed⟩ := ih.mp ran
          exact ⟨(p, some fault') :: c, last, later, rfl, .skipped fails soft course, failed⟩
        · simp only [soft] at ran
          cases ran
          exact ⟨[], p, rest, rfl, .done, fails, eq_false_of_ne_true soft⟩
      · obtain ⟨c, last, later, rfl, course, failed⟩ := ih.mp ran
        have passes := Patch.apply_attempt_ok.mp tried
        exact ⟨(p, none) :: c, last, later, rfl, .applied passes course, failed⟩
    · rintro ⟨c, last, later, same, course, fails, hard⟩
      cases course with
      | done =>
        obtain ⟨rfl, rfl⟩ := List.cons.inj same
        rw [Patch.apply_attempt_error.mpr ⟨fails, rfl⟩]
        simp [hard]
      | applied passes course =>
        obtain ⟨rfl, rfl⟩ := List.cons.inj same
        rw [Patch.apply_attempt_ok.mpr passes]
        exact ih.mpr ⟨_, last, later, rfl, course, fails, hard⟩
      | skipped skipped soft course =>
        obtain ⟨rfl, rfl⟩ := List.cons.inj same
        rw [Patch.apply_attempt_error.mpr ⟨skipped, rfl⟩]
        simp only [soft, if_true]
        exact ih.mpr ⟨_, last, later, rfl, course, fails, hard⟩

/-! ## What is kept of a course -/

namespace Course

/-- The patches that were applied go the same way without the others. -/
theorem kept (course : Course m c m') : Course m ((Batch.kept c).map (·, none)) m' := by
  induction course with
  | done => exact .done
  | applied passes _ ih => exact .applied passes ih
  | skipped _ _ _ ih => exact ih

/-- Only patches that name what is not there are skipped. -/
theorem symbolNotFound (course : Course m c m') :
    ∀ entry ∈ (reportOf c).skipped, ∃ symbol, entry.2 = .symbolNotFound symbol := by
  induction course with
  | done => nofun
  | applied _ _ ih => exact ih
  | skipped _ soft _ ih =>
    rintro entry (_ | ⟨_, later⟩)
    · exact Fault.exists_of_isSoft soft
    · exact ih entry later

/-- Nothing counts as touched between two patches. -/
theorem touched (course : Course m c m') (h : m.touched = []) : m'.touched = [] := by
  induction course with
  | done => exact h
  | applied passes _ ih =>
    obtain ⟨d, -, -, rfl⟩ := passes
    exact ih rfl
  | skipped _ _ _ ih => exact ih h

end Course

/-- Apply patches one after the other, and forget what each of them has touched. -/
def applyAll (patches : List Patch) : Edit Unit :=
  patches.forM fun p => do
    p.edit
    Edit.update Module.clearTouched

theorem Course.applyAll (course : Course m c m') :
    (Batch.applyAll (Batch.kept c)).apply m = (.ok (), m') := by
  induction course with
  | done => rfl
  | applied passes _ ih =>
    obtain ⟨d, ran, -, rfl⟩ := passes
    exact Edit.apply_bind_ok.mpr ⟨(), _, Edit.apply_bind_ok.mpr ⟨(), d, ran, rfl⟩, ih⟩
  | skipped _ _ _ ih => exact ih

/-- Patches that do not ask what counts as touched do the same if it is forgotten only in the
end. -/
theorem Course.apply_edits (course : Course m.clearTouched c m')
    (oblivious : ∀ p ∈ Batch.kept c, p.edit.Oblivious) :
    ∃ d, ((Batch.kept c).forM Patch.edit).apply m = (.ok (), d) ∧ m' = d.clearTouched := by
  -- by induction on the course, for any module that is its first but for what counts as touched
  generalize first : m.clearTouched = start at course
  induction course generalizing m with
  | done => exact ⟨m, rfl, first.symm⟩
  | applied passes _ ih =>
    obtain ⟨d, ran, -, rfl⟩ := passes
    obtain ⟨this, others⟩ := List.forall_mem_cons.mp oblivious
    subst first
    obtain ⟨d', ran, same⟩ := this.apply_ok ran
    obtain ⟨last, rest, left⟩ := ih others same
    exact ⟨last, Edit.apply_bind_ok.mpr ⟨(), d', ran, rest⟩, left⟩
  | skipped _ _ _ ih => exact ih oblivious first

theorem mem_of_mem_kept (h : p ∈ kept c) : p ∈ c.map Prod.fst := by
  obtain ⟨⟨q, skipped⟩, hq, found⟩ := List.mem_filterMap.mp h
  obtain ⟨-, same⟩ := Option.ite_none_right_eq_some.mp found
  obtain rfl := Option.some.inj same
  exact List.mem_map.mpr ⟨_, hq, rfl⟩

/-- The patches of a plan are of that kind, how far the batch ever got. -/
theorem oblivious_of_operations {operations : List Plan.Operation} {later : List Patch}
    (plan : operations.map Patch.ofOperation = c.map Prod.fst ++ later) :
    ∀ p ∈ kept c, p.edit.Oblivious := by
  intro p hp
  have planned : p ∈ operations.map Patch.ofOperation :=
    plan ▸ List.mem_append_left later (mem_of_mem_kept hp)
  obtain ⟨o, -, rfl⟩ := List.mem_map.mp planned
  exact Edit.oblivious_operation o

/-! ## Batches -/

theorem run_eq_ok :
    (run patches).apply m = (.ok report, m') ↔
      ∃ c draft, c.map Prod.fst = patches ∧ Course m.clearTouched c draft ∧
        report = reportOf c ∧ m' = (tidy.apply draft).2 := by
  rw [apply_run]
  rcases ran : (runFrom .empty patches).apply m.clearTouched with ⟨fault | r, draft⟩
  · refine iff_of_false nofun ?_
    rintro ⟨c, draft', same, course, rfl, -⟩
    have done := runFrom_eq_ok.mpr ⟨c, same, course, rfl⟩
    rw [ran] at done
    cases done
  · simp only [Prod.mk.injEq, Except.ok.injEq]
    constructor
    · rintro ⟨rfl, rfl⟩
      obtain ⟨c, same, course, reported⟩ := runFrom_eq_ok.mp ran
      exact ⟨c, draft, same, course, reported, rfl⟩
    · rintro ⟨c, draft', same, course, rfl, rfl⟩
      have done := runFrom_eq_ok.mpr ⟨c, same, course, rfl⟩
      rw [ran] at done
      cases done
      exact ⟨rfl, rfl⟩

theorem run_eq_error :
    (run patches).apply m = (.error fault, m') ↔
      ∃ c p later, patches = c.map Prod.fst ++ p :: later ∧ Course m.clearTouched c m' ∧
        p.Fails m' fault ∧ fault.isSoft = false := by
  rw [apply_run, ← runFrom_eq_error]
  rcases (runFrom .empty patches).apply m.clearTouched with ⟨fault | r, draft⟩ <;> simp

end Batch

/-- A batch that runs to its end accounts for all its patches, and leaves the module that the
applied ones alone would have left. One that is cut short leaves the module that the patches applied
before have made, whatever patches were to come. -/
theorem batch_transactional (patches : List Patch) (m m' : Module) :
    (∀ report, (Batch.run patches).apply m = (.ok report, m') →
      ∃ c draft, c.map Prod.fst = patches ∧ Batch.Course m.clearTouched c draft ∧
        report = Batch.reportOf c ∧ m' = (Batch.tidy.apply draft).2 ∧
        (∀ entry ∈ report.skipped, ∃ symbol, entry.2 = .symbolNotFound symbol) ∧
        (Batch.run (Batch.kept c)).apply m = (.ok ⟨report.applied, []⟩, m')) ∧
      ∀ fault, (Batch.run patches).apply m = (.error fault, m') →
        ∃ c p later, patches = c.map Prod.fst ++ p :: later ∧
          Batch.Course m.clearTouched c m' ∧ p.Fails m' fault ∧ fault.isSoft = false ∧
          m'.touched = [] ∧
          (Batch.applyAll (Batch.kept c)).apply m.clearTouched = (.ok (), m') ∧
          ((∀ p ∈ Batch.kept c, p.edit.Oblivious) →
            ∃ d, ((Batch.kept c).forM Patch.edit).apply m = (.ok (), d) ∧ m' = d.clearTouched) ∧
          ∀ others, (Batch.run (c.map Prod.fst ++ p :: others)).apply m = (.error fault, m') := by
  refine ⟨fun report ran => ?_, fun fault ran => ?_⟩
  · obtain ⟨c, draft, same, course, rfl, rfl⟩ := Batch.run_eq_ok.mp ran
    refine ⟨c, draft, same, course, rfl, rfl, course.symbolNotFound, ?_⟩
    have applied := (Batch.reportOf_map (Batch.kept c)).symm
    refine Batch.run_eq_ok.mpr ⟨_, draft, ?_, course.kept, applied, rfl⟩
    rw [List.map_map]
    exact List.map_id _
  · obtain ⟨c, p, later, same, course, fails, hard⟩ := Batch.run_eq_error.mp ran
    exact ⟨c, p, later, same, course, fails, hard, course.touched rfl, course.applyAll,
      course.apply_edits,
      fun others => Batch.run_eq_error.mpr ⟨c, p, others, rfl, course, fails, hard⟩⟩

namespace Sample

/-- An operation on positions that are not there. -/
def beyond : Plan.Operation := .removeRange ⟨"Counter", "next"⟩ 50 60

theorem apply_beyond :
    (Edit.operation beyond).apply draft.clearTouched =
      (.error (.positionOutOfRange "Counter::next" 60 7), draft.clearTouched.touch ⟨0⟩) := by
  have target : (Plan.MethodRef.mk "Counter" "next").resolve draft.clearTouched.toTables =
      .ok ⟨0⟩ := by decide +kernel
  have body : draft.clearTouched.body? ⟨0⟩ = some longer := rfl
  have refused : (draft.clearTouched.touch ⟨0⟩).checkRemovable ⟨0⟩ longer 50 60 =
      .error (.positionOutOfRange "Counter::next" 60 7) := by decide +kernel
  refine (Edit.apply_check_bind ..).trans ?_
  simp only [target, Edit.apply_discard, Edit.removeRange, Edit.apply_start_bind, body,
    Edit.apply_check_bind, refused]
  rfl

theorem attempt_beyond :
    (Batch.attempt (.ofOperation beyond)).apply draft.clearTouched =
      (.error (.positionOutOfRange "Counter::next" 60 7), draft.clearTouched) :=
  Batch.apply_attempt_of_error (p := .ofOperation beyond) apply_beyond

theorem run_beyond :
    (Batch.run ([operation, missing, beyond, operation].map .ofOperation)).apply file.build =
      (.error (.positionOutOfRange "Counter::next" 60 7), draft.clearTouched) := by
  have untouched : file.build.clearTouched = file.build := rfl
  have skipped := Batch.apply_attempt_of_error (p := .ofOperation missing) apply_missing
  rw [Batch.apply_run, untouched]
  simp only [List.map_cons, Batch.apply_runFrom_cons, attempt_operation, skipped, attempt_beyond]
  rfl

end Sample

/-- Instances: a batch of which one operation is applied and another skipped, and one in which a
third fails after them. -/
theorem batch_transactional_sample :
    (∃ c, c.map Prod.fst = [Sample.operation, Sample.missing].map .ofOperation ∧
      (Batch.run (Batch.kept c)).apply Sample.file.build =
        (.ok ⟨Sample.report.applied, []⟩, Sample.padded.build)) ∧
      ∃ c p later d, [Sample.operation, Sample.missing, Sample.beyond, Sample.operation].map
          .ofOperation = c.map Prod.fst ++ p :: later ∧
        ((Batch.kept c).forM Patch.edit).apply Sample.file.build = (.ok (), d) ∧
        Sample.draft.clearTouched = d.clearTouched := by
  obtain ⟨c, -, same, -, -, -, -, alone⟩ := (batch_transactional _ _ _).1 _ Sample.run_operations
  obtain ⟨c', p, later, split, -, -, -, -, -, oblivious, -⟩ :=
    (batch_transactional _ _ _).2 _ Sample.run_beyond
  obtain ⟨d, ran, left⟩ := oblivious (Batch.oblivious_of_operations split)
  exact ⟨⟨c, same, alone⟩, c', p, later, d, split, ran, left⟩

end Graft
