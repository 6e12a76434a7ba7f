import Graft.Proofs.Lockstep

/-!
# Batches can be cut anywhere

Running two lists of operations one after the other, with the module stored away and loaded in
between, is the same as running them in one go. The module that was tidied up in the middle is a
twin of the draft that a single run goes on with, so that from there on both runs go the same way,
and tidying up in the end makes one module of both drafts.
-/

namespace Graft

/-! ## Reports -/

namespace Report

/-- What became of some patches, and of those that came after. -/
def append (r s : Report) : Report := ⟨r.applied ++ s.applied, r.skipped ++ s.skipped⟩

instance : Append Report := ⟨append⟩

variable (r s : Report)

@[simp] theorem append_empty : r ++ empty = r := by
  show Report.mk (r.applied ++ []) (r.skipped ++ []) = r
  rw [List.append_nil, List.append_nil]

theorem append_addApplied (name : String) : r ++ s.addApplied name = (r ++ s).addApplied name := by
  show Report.mk (r.applied ++ (s.applied ++ [name])) _ = _
  rw [← List.append_assoc]
  rfl

theorem append_addSkipped (name : String) (fault : Fault) :
    r ++ s.addSkipped name fault = (r ++ s).addSkipped name fault := by
  show Report.mk _ (r.skipped ++ (s.skipped ++ [(name, fault)])) = _
  rw [← List.append_assoc]
  rfl

end Report

namespace Batch

open Graft.Module

variable {m m' : Module} {report report' : Report} {first second : List Patch}
  {operations later : List Plan.Operation}

/-! ## Runs of patches -/

/-- What was reported before a run stands in front of what it reports. -/
theorem apply_runFrom_report (report report' : Report) (patches : List Patch) (m : Module) :
    (runFrom (report ++ report') patches).apply m =
      (((runFrom report' patches).apply m).1.map (report ++ ·),
        ((runFrom report' patches).apply m).2) := by
  induction patches generalizing m report' with
  | nil => rfl
  | cons p rest ih =>
    rw [apply_runFrom_cons, apply_runFrom_cons]
    rcases (attempt p).apply m with ⟨fault | _, m'⟩
    · by_cases soft : fault.isSoft = true
      · simp only [soft, if_true]
        rw [← Report.append_addSkipped, ih]
      · simp only [soft]
        rfl
    · simp only
      rw [← Report.append_addApplied, ih]

theorem apply_runFrom_ok {patches : List Patch} :
    (runFrom report patches).apply m = (.ok report', m') ↔
      ∃ r, (runFrom .empty patches).apply m = (.ok r, m') ∧ report' = report ++ r := by
  have shifted := apply_runFrom_report report .empty patches m
  rw [Report.append_empty] at shifted
  rw [shifted]
  -- a run after other patches is the run without them, its report put behind theirs
  rcases (runFrom .empty patches).apply m with ⟨fault | r, d⟩
  · simp [Except.map]
  · simp only [Except.map, Prod.mk.injEq, Except.ok.injEq]
    constructor
    · rintro ⟨rfl, rfl⟩
      exact ⟨r, ⟨rfl, rfl⟩, rfl⟩
    · rintro ⟨_, ⟨rfl, rfl⟩, rfl⟩
      exact ⟨rfl, rfl⟩

/-- A run of patches that are followed by others. -/
theorem apply_runFrom_append (report : Report) (m : Module) :
    (runFrom report (first ++ second)).apply m =
      (runFrom report first >>= fun report => runFrom report second).apply m := by
  rw [Edit.apply_bind]
  induction first generalizing m report with
  | nil => rfl
  | cons p rest ih =>
    rw [List.cons_append, apply_runFrom_cons, apply_runFrom_cons]
    rcases (attempt p).apply m with ⟨fault | _, m'⟩
    · by_cases soft : fault.isSoft = true
      · simp only [soft, if_true]
        exact ih _ _
      · simp only [soft]
        rfl
    · exact ih _ _

/-- The drafts of the first patches come first. -/
theorem mem_drafts_append {d : Module} (h : d ∈ drafts first m) :
    d ∈ drafts (first ++ second) m := by
  induction first generalizing m with
  | nil => cases h
  | cons p rest ih =>
    rw [List.cons_append, drafts]
    rw [drafts] at h
    rcases List.mem_cons.mp h with rfl | h
    · exact List.mem_cons_self
    · refine List.mem_cons_of_mem _ ?_
      generalize (attempt p).apply m = outcome at h ⊢
      obtain ⟨fault | _, m'⟩ := outcome
      · by_cases soft : fault.isSoft = true
        · simp only [soft, if_true] at h ⊢
          exact ih h
        · simp [soft] at h
      · exact ih h

/-- The drafts of the other patches are those that are made where the first patches end. -/
theorem mem_drafts_of_runFrom {d : Module}
    (done : (runFrom report first).apply m = (.ok report', m')) (h : d ∈ drafts second m') :
    d ∈ drafts (first ++ second) m := by
  induction first generalizing m report with
  | nil =>
    cases done
    exact h
  | cons p rest ih =>
    rw [List.cons_append, drafts]
    rw [apply_runFrom_cons] at done
    refine List.mem_cons_of_mem _ ?_
    generalize (attempt p).apply m = outcome at done ⊢
    obtain ⟨fault | _, m₁⟩ := outcome
    · by_cases soft : fault.isSoft = true
      · simp only [soft, if_true] at done ⊢
        exact ih done
      · simp [soft] at done
    · exact ih done

/-! ## Batches -/

/-- A batch of a module that was just built from the file of another. -/
theorem apply_run_build_ok (h : m.Storable) (untouched : m.touched = [])
    (unlabelled : ∀ o ∈ operations, o.Unlabelled)
    (room : ∀ d ∈ drafts (operations.map .ofOperation) m, d.arena.size ≤ Arena.capacity) :
    (run (operations.map .ofOperation)).apply m.view.build = (.ok report, m') ↔
      ∃ draft, (runFrom .empty (operations.map .ofOperation)).apply m = (.ok report, draft) ∧
        m' = draft.view.build := by
  have same : m.clearTouched = m := by rw [clearTouched, ← untouched]
  have twin : Twin m m.view.build := by
    have built := h.twin_build
    rw [untouched] at built
    exact built
  rw [← same] at room
  rw [run_twin twin unlabelled room, apply_run_ok h unlabelled room, same]

/-- A batch that goes on where another has ended. -/
theorem apply_run_append (h : m.Storable) (unlabelled : ∀ o ∈ operations ++ later, o.Unlabelled)
    (room : ∀ d ∈ drafts ((operations ++ later).map .ofOperation) m.clearTouched,
      d.arena.size ≤ Arena.capacity) :
    (run ((operations ++ later).map .ofOperation)).apply m = (.ok report, m') ↔
      ∃ r₁ m₁ r₂, (run (operations.map .ofOperation)).apply m = (.ok r₁, m₁) ∧
        (run (later.map .ofOperation)).apply m₁ = (.ok r₂, m') ∧ report = r₁ ++ r₂ := by
  have before : ∀ d ∈ drafts (operations.map .ofOperation) m.clearTouched,
      d.arena.size ≤ Arena.capacity := fun d hd =>
    room d (List.map_append ▸ mem_drafts_append hd)
  obtain ⟨bare, bare'⟩ := List.forall_mem_append.mp unlabelled
  -- the module in the middle is built from the file of the draft there
  have second : ∀ {r₁ d₁ r₂},
      (runFrom .empty (operations.map .ofOperation)).apply m.clearTouched = (.ok r₁, d₁) →
      ((run (later.map .ofOperation)).apply d₁.view.build = (.ok r₂, m') ↔
        ∃ draft, (runFrom .empty (later.map .ofOperation)).apply d₁ = (.ok r₂, draft) ∧
          m' = draft.view.build) := by
    intro r₁ d₁ r₂ done
    have storable := storable_runFrom h.clearTouched bare .empty before
    have untouched := touched_runFrom .empty (operations.map .ofOperation) (m := m.clearTouched) rfl
    rw [done] at storable untouched
    exact apply_run_build_ok storable untouched bare' fun d hd =>
      room d (List.map_append ▸ mem_drafts_of_runFrom done hd)
  rw [apply_run_ok h unlabelled room, List.map_append]
  simp only [apply_run_ok h bare before, apply_runFrom_append, Edit.apply_bind_ok]
  constructor
  · rintro ⟨draft, ⟨r₁, d₁, first, whole⟩, rfl⟩
    obtain ⟨r₂, rest, rfl⟩ := apply_runFrom_ok.mp whole
    exact ⟨r₁, _, r₂, ⟨d₁, first, rfl⟩, (second first).mpr ⟨draft, rest, rfl⟩, rfl⟩
  · rintro ⟨r₁, _, r₂, ⟨d₁, first, rfl⟩, ran, rfl⟩
    obtain ⟨draft, rest, rfl⟩ := (second first).mp ran
    exact ⟨draft, ⟨r₁, d₁, first, apply_runFrom_ok.mpr ⟨r₂, rest, rfl⟩⟩, rfl⟩

end Batch

/-- Running two lists of operations, none of which names an instruction that is there, in one go
comes to the same as running them one after the other: either both ways end with one module and what
the one reports is what the other reports together, or neither way runs to its end. -/
theorem batch_split {m m' : Module} {first second : List Plan.Operation} {report : Report}
    (unlabelled : ∀ o ∈ first ++ second, o.Unlabelled)
    (loaded : m.Loaded) (room : m.arena.size ≤ Arena.capacity)
    (fits : Batch.Fits ((first ++ second).map .ofOperation) m) :
    (Batch.run ((first ++ second).map .ofOperation)).apply m = (.ok report, m') ↔
      ∃ r₁ m₁ r₂, (Batch.run (first.map .ofOperation)).apply m = (.ok r₁, m₁) ∧
        (Batch.run (second.map .ofOperation)).apply m₁ = (.ok r₂, m') ∧ report = r₁ ++ r₂ :=
  Batch.apply_run_append (loaded.storable room) unlabelled fits.drafts

/-- An instance: the first list has an operation that is applied, the second one that is skipped. -/
theorem batch_split_sample :
    (Batch.run (([Sample.operation] ++ [Sample.missing]).map .ofOperation)).apply
        Sample.file.build = (.ok Sample.report, Sample.padded.build) ∧
      ∃ r₁ m₁ r₂,
        (Batch.run ([Sample.operation].map .ofOperation)).apply Sample.file.build =
            (.ok r₁, m₁) ∧
          (Batch.run ([Sample.missing].map .ofOperation)).apply m₁ =
            (.ok r₂, Sample.padded.build) ∧
          Sample.report = r₁ ++ r₂ := by
  have fits : Batch.Fits (([Sample.operation] ++ [Sample.missing]).map .ofOperation)
      Sample.file.build := Sample.fits_operations
  exact ⟨Sample.run_operations,
    (batch_split Sample.unlabelled Sample.loaded Sample.room fits).mp Sample.run_operations⟩

end Graft
