import Graft.Batch
import Graft.Proofs.Compaction
import Graft.Proofs.Operations
import Graft.Proofs.WellFormed

/-!
# Batches keep modules verified

A batch starts with a module in which all bodies verify. Each patch that succeeds has the bodies
that it touched verified, and no others can have been broken; a patch that fails is undone; and
compaction keeps what verifies. So a batch leaves a module that verifies, however it ends.
-/

namespace Graft

namespace Batch

variable {m m' : Module}

/-! ## Runs -/

/-- The modules that the patches of a batch make, one after the other. A patch that fails has made
one too before it is undone. -/
def drafts : List Patch → Module → List Module
  | [], _ => []
  | p :: rest, m =>
    (p.edit.apply m).2 ::
      match (attempt p).apply m with
      | (.ok (), m') => drafts rest m'
      | (.error fault, m') => if fault.isSoft then drafts rest m' else []

/-- At no time are there more slots than handles. -/
structure Fits (patches : List Patch) (m : Module) : Prop where
  drafts : ∀ d ∈ Batch.drafts patches m.clearTouched, d.arena.size ≤ Arena.capacity
  final : ((run patches).apply m).2.arena.size ≤ Arena.capacity

/-- An attempt is undone if the patch or what follows it fails. -/
theorem apply_attempt_eq (p : Patch) (m : Module) :
    (attempt p).apply m =
      match (p.edit >>= fun _ => verifyTouched).apply m with
      | (.ok (), after) => (.ok (), after.clearTouched)
      | (.error fault, _) => (.error fault, m) := rfl

/-- A patch that fails is undone. -/
theorem apply_attempt_of_error {p : Patch} {fault : Fault}
    (h : p.edit.apply m = (.error fault, m')) : (attempt p).apply m = (.error fault, m) := by
  have both : (p.edit >>= fun _ => verifyTouched).apply m = (.error fault, m') := by
    rw [Edit.apply_bind, h]
  rw [apply_attempt_eq, both]

/-- A patch that succeeds is kept if what it touched verifies. -/
theorem apply_attempt_of_ok {p : Patch} (h : p.edit.apply m = (.ok (), m')) :
    (attempt p).apply m =
      match m'.verifyBodies m'.touched with
      | .ok () => (.ok (), m'.clearTouched)
      | .error fault => (.error fault, m) := by
  have both : (p.edit >>= fun _ => verifyTouched).apply m =
      (m'.verifyBodies m'.touched, m') := by
    rw [Edit.apply_bind, h]
    exact Edit.apply_check ..
  rw [apply_attempt_eq, both]
  cases m'.verifyBodies m'.touched <;> rfl

/-- An attempt succeeds with a module whose touched bodies verify, or changes nothing. -/
theorem apply_attempt (p : Patch) (m : Module) :
    (∃ m', p.edit.apply m = (.ok (), m') ∧ m'.verifyBodies m'.touched = .ok () ∧
      (attempt p).apply m = (.ok (), m'.clearTouched)) ∨
      ∃ fault, (attempt p).apply m = (.error fault, m) := by
  rcases ran : p.edit.apply m with ⟨fault | _, m'⟩
  · exact .inr ⟨fault, apply_attempt_of_error ran⟩
  · rw [apply_attempt_of_ok ran]
    cases h : m'.verifyBodies m'.touched with
    | error fault => exact .inr ⟨fault, rfl⟩
    | ok _ => exact .inl ⟨m', rfl, h, rfl⟩

theorem apply_runFrom_cons (p : Patch) (rest : List Patch) (report : Report) (m : Module) :
    (runFrom report (p :: rest)).apply m =
      match (attempt p).apply m with
      | (.ok (), m') => (runFrom (report.addApplied p.name) rest).apply m'
      | (.error fault, m') =>
        if fault.isSoft then (runFrom (report.addSkipped p.name fault) rest).apply m'
        else (.error fault, m') := by
  show (match (attempt p).apply m with
      | (.ok (), m) => (runFrom (report.addApplied p.name) rest).apply m
      | (.error fault, m) =>
        (if fault.isSoft then runFrom (report.addSkipped p.name fault) rest m
          else (.error fault, m) : Except Fault Report × Module)) = _
  rcases (attempt p).apply m with ⟨fault | _, m'⟩ <;> rfl

/-- Tidying compacts the module if that is possible. -/
theorem apply_tidy (m : Module) :
    tidy.apply m = (Except.ok (), m.compacted.toOption.getD m) := by
  show (Except.ok (), (Edit.compact.apply m).2) = _
  rw [Edit.compact, Edit.apply_check_bind]
  cases m.compacted <;> rfl

/-- A batch that runs to its end is tidied up after. -/
theorem apply_run (patches : List Patch) (m : Module) :
    (run patches).apply m =
      match (runFrom .empty patches).apply m.clearTouched with
      | (.ok report, m') => (.ok report, (tidy.apply m').2)
      | (.error fault, m') => (.error fault, m') := by
  rw [run, Edit.apply_update_bind, Edit.apply_bind]
  rcases (runFrom .empty patches).apply m.clearTouched with ⟨fault | report, m'⟩
  · rfl
  · show (tidy >>= fun _ => pure report).apply m' = _
    simp only [Edit.apply_bind, apply_tidy, Edit.apply_pure]

theorem snd_apply_run (patches : List Patch) (m : Module) :
    ((run patches).apply m).2 =
      match (runFrom .empty patches).apply m.clearTouched with
      | (.ok _, m') => (tidy.apply m').2
      | (.error _, m') => m' := by
  rw [apply_run]
  rcases (runFrom .empty patches).apply m.clearTouched with ⟨fault | report, m'⟩ <;> rfl

/-! ## Slots of a run -/

/-- What a run of patches leaves is what it started with, or what one of its patches has made. -/
theorem exists_draft (report : Report) (patches : List Patch) (m : Module) :
    ((runFrom report patches).apply m).2 = m ∨
      ∃ d ∈ drafts patches m, ((runFrom report patches).apply m).2 = d.clearTouched := by
  induction patches generalizing m report with
  | nil => exact .inl rfl
  | cons p rest ih =>
    rw [apply_runFrom_cons, drafts]
    obtain ⟨m', ok, -, run⟩ | ⟨fault, run⟩ := apply_attempt p m <;> rw [run]
    · rcases ih (report.addApplied p.name) m'.clearTouched with same | ⟨d, hd, same⟩
      · exact .inr ⟨m', by simp [ok], same⟩
      · exact .inr ⟨d, List.mem_cons_of_mem _ hd, same⟩
    · by_cases soft : fault.isSoft = true
      · simp only [soft, if_true]
        rcases ih (report.addSkipped p.name fault) m with same | ⟨d, hd, same⟩
        · exact .inl same
        · exact .inr ⟨d, List.mem_cons_of_mem _ hd, same⟩
      · simp [soft]

/-- It is enough to count the slots and the instructions of the drafts. -/
theorem Fits.of_drafts {patches : List Patch}
    (start : m.arena.size ≤ Arena.capacity ∧ m.instructionCount ≤ Arena.capacity)
    (drafts : ∀ d ∈ Batch.drafts patches m.clearTouched,
      d.arena.size ≤ Arena.capacity ∧ d.instructionCount ≤ Arena.capacity) : Fits patches m where
  drafts d hd := (drafts d hd).1
  final := by
    have last : ((runFrom .empty patches).apply m.clearTouched).2.arena.size ≤ Arena.capacity ∧
        ((runFrom .empty patches).apply m.clearTouched).2.instructionCount ≤ Arena.capacity := by
      rcases exists_draft .empty patches m.clearTouched with same | ⟨d, hd, same⟩ <;> rw [same]
      · exact start
      · exact drafts d hd
    rw [snd_apply_run]
    rcases h : (runFrom .empty patches).apply m.clearTouched with ⟨fault | report, m'⟩ <;>
      rw [h] at last
    · exact last.1
    · simp only [apply_tidy]
      cases hc : m'.compacted with
      | error fault => exact last.1
      | ok fresh => exact (Module.size_compacted hc).trans_le last.2

/-! ## Invariants -/

/-- What every attempt preserves is preserved by a run of patches, also if it is cut short. An
attempt may need something of the draft that it makes. -/
theorem runFrom_preserves {P R : Module → Prop} {patches : List Patch}
    (step : ∀ (m : Module), ∀ p ∈ patches, P m → R (p.edit.apply m).2 → P ((attempt p).apply m).2)
    (report : Report) (start : P m) (room : ∀ d ∈ drafts patches m, R d) :
    P ((runFrom report patches).apply m).2 := by
  -- by induction on the patches, the report growing and the module changing with each
  induction patches generalizing m report with
  | nil => exact start
  | cons p patches ih =>
    rw [drafts, List.forall_mem_cons] at room
    obtain ⟨first, later⟩ := room
    have rest : ∀ (m : Module), ∀ q ∈ patches, P m → R (q.edit.apply m).2 →
        P ((attempt q).apply m).2 := fun m q hq => step m q (List.mem_cons_of_mem _ hq)
    have kept := step m p List.mem_cons_self start first
    rw [apply_runFrom_cons]
    rcases h : (attempt p).apply m with ⟨fault | _, m'⟩ <;> rw [h] at kept later
    · by_cases soft : fault.isSoft = true
      · simp only [soft, if_true] at later ⊢
        exact ih rest _ kept later
      · simp only [soft]
        exact kept
    · exact ih rest _ kept later

/-- What one patch preserves. -/
theorem verify_attempt {o : Plan.Operation} (coherent : m.Coherent) (declared : m.Declared)
    (verify : m.verify = .ok ())
    (room : ((Edit.operation o).apply m).2.arena.size ≤ Arena.capacity) :
    ((attempt (.ofOperation o)).apply m).2.Coherent ∧
      ((attempt (.ofOperation o)).apply m).2.Declared ∧
      ((attempt (.ofOperation o)).apply m).2.verify = .ok () := by
  obtain ⟨m', ok, touched, run⟩ | ⟨fault, run⟩ := apply_attempt (.ofOperation o) m <;> rw [run]
  · have ok : (Edit.operation o).apply m = (.ok (), m') := ok
    rw [ok] at room
    have pending := Edit.pending_operation (.of_verify coherent declared verify) ok room
    exact ⟨pending.coherent, pending.declared, pending.verify touched⟩
  · exact ⟨coherent, declared, verify⟩

/-- What a run of patches preserves. -/
theorem verify_runFrom {operations : List Plan.Operation} (report : Report)
    (coherent : m.Coherent) (declared : m.Declared) (verify : m.verify = .ok ())
    (room : ∀ d ∈ drafts (operations.map .ofOperation) m, d.arena.size ≤ Arena.capacity) :
    ((runFrom report (operations.map .ofOperation)).apply m).2.verify = .ok () := by
  refine (runFrom_preserves (P := fun m => m.Coherent ∧ m.Declared ∧ m.verify = .ok ())
    (fun m p hp h room => ?_) report ⟨coherent, declared, verify⟩ room).2.2
  obtain ⟨o, -, rfl⟩ := List.mem_map.mp hp
  exact verify_attempt h.1 h.2.1 h.2.2 room

/-- The patches of a plan are those of its operations. -/
theorem exists_operations {text : String} {patches : List Patch} (h : ofPlan text = .ok patches) :
    ∃ operations : List Plan.Operation, Plan.read text = .ok operations ∧
      patches = operations.map .ofOperation := by
  rw [ofPlan] at h
  cases read : Plan.read text with
  | error fault => simp [read, Except.map] at h
  | ok operations => exact ⟨operations, rfl, by simpa [read, Except.map] using h.symm⟩

end Batch

/-- If types list what names them, as in a module that was loaded, every method without a body is
abstract or external, and all bodies verify, then they do so again once a plan has been run, whether
it ran to its end or not. -/
theorem verify_after_batch {m : Module} {text : String} {patches : List Patch}
    (coherent : m.Coherent) (declared : m.Declared) (verify : m.verify = .ok ())
    (plan : Batch.ofPlan text = .ok patches) (fits : Batch.Fits patches m) :
    ((Batch.run patches).apply m).2.verify = .ok () := by
  obtain ⟨operations, -, rfl⟩ := Batch.exists_operations plan
  have kept :=
    Batch.verify_runFrom (m := m.clearTouched) .empty coherent declared verify fits.drafts
  have final := fits.final
  rw [Batch.snd_apply_run] at final ⊢
  rcases h : (Batch.runFrom .empty (operations.map .ofOperation)).apply m.clearTouched with
    ⟨fault | report, m'⟩ <;> rw [h] at kept final
  · exact kept
  · simp only [Batch.apply_tidy] at final ⊢
    cases hc : m'.compacted with
    | error fault => exact kept
    | ok fresh =>
      rw [hc] at final
      exact Module.verify_compacted hc final kept

namespace Sample

/-- The operation of a small plan. -/
def operation : Plan.Operation := .insert ⟨"Counter", "next"⟩ 0 (.plain .nop)

theorem ofPlan_operation :
    Batch.ofPlan "insert Counter next 0 nop" = .ok [Patch.ofOperation operation] := by
  have read : Plan.read "insert Counter next 0 nop" = .ok [operation] := by decide +kernel
  rw [Batch.ofPlan, read]
  rfl

theorem declared : file.build.Declared := by
  intro k d hd bare
  obtain rfl := eq_zero_of_method? hd
  have body := body?_build_zero
  rw [Module.body?_of_method? hd, bare] at body
  cases body

theorem apply_operation :
    ∃ m', (Edit.operation operation).apply file.build = (.ok (), m') ∧
      m'.arena.size = 7 ∧ m'.instructionCount = 7 := by
  have target : (Plan.MethodRef.mk "Counter" "next").resolve file.build.toTables = .ok ⟨0⟩ := by
    decide +kernel
  have inserted := (Edit.apply_insertAt_ok (i := .nop)).mpr ⟨live, body?_build_zero, Nat.zero_le _,
    ⟨.of_none rfl rfl rfl, .of_none rfl rfl, List.forall_mem_nil _⟩, rfl, rfl⟩
  refine ⟨_, Edit.apply_check_bind_ok.mpr ⟨_, target, Edit.apply_check_bind_ok.mpr
    ⟨.nop, rfl, Edit.apply_discard_ok.mpr ⟨_, inserted⟩⟩⟩, ?_, ?_⟩
  · rw [Module.arena_rebuilt, Arena.size_append]
    decide +kernel
  · rw [Module.rebuilt_eq body?_build_zero]
    rfl

theorem fits : Batch.Fits [Patch.ofOperation operation] file.build := by
  obtain ⟨m', ok, slots, count⟩ := apply_operation
  refine .of_drafts (by decide +kernel) fun d hd => ?_
  have only : Batch.drafts [.ofOperation operation] file.build = [m'] := by
    rw [Batch.drafts]
    refine congrArg₂ List.cons (congrArg Prod.snd ok) ?_
    split
    · rfl
    · split <;> rfl
  obtain rfl := List.mem_singleton.mp (only ▸ hd)
  rw [slots, count]
  decide

end Sample

/-- An instance: the plan inserts an instruction into the sample. -/
theorem verify_after_batch_sample :
    ((Batch.run [.ofOperation Sample.operation]).apply Sample.file.build).2.verify = .ok () :=
  verify_after_batch (Sample.file.coherent_build Sample.checked) Sample.declared
    Sample.verify_build Sample.ofPlan_operation Sample.fits

end Graft
