import Graft.Proofs.Transactions
import Mathlib.Data.List.TakeWhile

/-!
# Batches that change nothing

A batch that skips all its patches leaves the module that it found, and compaction of a module that
was just loaded gives that module again. So what is written afterwards is what was read, to the
byte. A plan of blank lines and comments has no operation that could be applied.
-/

namespace Graft

/-! ## Plans that say nothing -/

namespace Text

variable {cs rest : List Char} {c : Char}

theorem trim_of_blank (h : ∀ c ∈ cs, isBlank c = true) : trim cs = [] := by
  rw [trim, trimStart, List.dropWhile_eq_nil_iff.mpr h]
  rfl

/-- What follows the first character that is no blank does not hide it. -/
theorem trim_of_blanks (h : ∀ c ∈ cs, isBlank c = true) (solid : isBlank c = false) :
    ∃ front, trim (cs ++ c :: rest) = c :: front := by
  have start : trimStart (cs ++ c :: rest) = c :: rest := by
    rw [trimStart, List.dropWhile_append_of_pos h, List.dropWhile_cons_of_neg (by simp [solid])]
  refine ⟨trimEnd rest, ?_⟩
  rw [trim, start, trimEnd, trimEnd, trimStart, trimStart, List.reverse_cons, List.dropWhile_append]
  split
  · rename_i none
    rw [List.isEmpty_iff.mp none, List.dropWhile_cons_of_neg (by simp [solid])]
    rfl
  · exact List.reverse_concat ..

end Text

namespace Plan

/-- A line of blanks, or one that says nothing but a comment. -/
def Silent (line : List Char) : Prop :=
  (∀ c ∈ line, Text.isBlank c = true) ∨
    ∃ indent comment, (∀ c ∈ indent, Text.isBlank c = true) ∧ line = indent ++ '#' :: comment

theorem Silent.isSilent {line : List Char} (h : Silent line) : isSilent line = true := by
  rw [Plan.isSilent]
  rcases h with blank | ⟨indent, comment, blank, rfl⟩
  · rw [Text.trim_of_blank blank]
  · obtain ⟨front, trimmed⟩ : ∃ front, Text.trim (indent ++ '#' :: comment) = '#' :: front :=
      Text.trim_of_blanks blank (by decide)
    rw [trimmed]
    rfl

theorem readLines_of_silent {lines : List (List Char)} (h : ∀ line ∈ lines, Silent line)
    (number : Nat) : readLines number lines = .ok [] := by
  induction lines generalizing number with
  | nil => rfl
  | cons line lines ih =>
    obtain ⟨first, later⟩ := List.forall_mem_cons.mp h
    rw [readLines, if_pos first.isSilent, ih later]

end Plan

theorem Batch.ofPlan_of_silent {text : String}
    (h : ∀ line ∈ Text.lines text.toList, Plan.Silent line) : Batch.ofPlan text = .ok [] := by
  rw [ofPlan, Plan.read, Plan.readLines_of_silent h]
  rfl

/-! ## Batches that skip all patches -/

namespace Batch

variable {m m' : Module} {c : List (Patch × Option Fault)}

/-- Patches that are skipped leave no trace. -/
theorem Course.eq_of_kept (course : Course m c m') (none : Batch.kept c = []) : m' = m := by
  induction course with
  | done => rfl
  | applied => cases none
  | skipped _ _ _ ih => exact ih none

/-- A module that was just loaded is compact. -/
theorem tidy_loaded {f : ModuleFile} (regular : f.Regular) (loaded : f.load = .ok m)
    (room : m.arena.size ≤ Arena.capacity) : (tidy.apply m).2 = m := by
  have storable := Module.Loaded.storable ⟨f, regular, loaded⟩ room
  obtain ⟨accepted, rfl⟩ := ModuleFile.load_eq_ok.mp loaded
  rw [tidy_eq storable rfl, Placement.view_build accepted room]
  rfl

theorem run_idle {f : ModuleFile} {patches : List Patch} {report : Report} (regular : f.Regular)
    (loaded : f.load = .ok m) (room : m.arena.size ≤ Arena.capacity)
    (ran : (run patches).apply m = (.ok report, m')) (idle : report.applied = []) : m' = m := by
  obtain ⟨c, draft, -, course, rfl, rfl⟩ := run_eq_ok.mp ran
  have untouched : m.clearTouched = m := by
    obtain ⟨-, rfl⟩ := ModuleFile.load_eq_ok.mp loaded
    rfl
  rw [course.eq_of_kept (List.map_eq_nil_iff.mp idle), untouched]
  exact tidy_loaded regular loaded room

end Batch

/-- A plan that changes nothing reproduces its input: if all patches are skipped, the module is the
one that was read, and it is written as the bytes it was read from. So it is with every plan of
blank lines and comments. -/
theorem idle_batch_reproduces {bytes : List UInt8} {f : ModuleFile} {m : Module}
    (read : ModuleFile.ofBytes bytes = .ok f) (loaded : f.load = .ok m)
    (room : slotCount f.methods.toList ≤ Arena.capacity) :
    (∀ patches report m', (Batch.run patches).apply m = (.ok report, m') → report.applied = [] →
      m' = m ∧ ∃ f', m'.toFile = .ok f' ∧ f'.encode = bytes) ∧
    ∀ text : String, (∀ line ∈ Text.lines text.toList, Plan.Silent line) →
      ∃ patches, Batch.ofPlan text = .ok patches ∧
        (Batch.run patches).apply m = (.ok .empty, m) := by
  have regular := ModuleFile.regular_of_ofBytes read
  obtain ⟨writable, spelled⟩ := ModuleFile.decode_eq_ok.mp (ModuleFile.ofBytes_eq_ok.mp read)
  obtain ⟨accepted, rfl⟩ := ModuleFile.load_eq_ok.mp loaded
  rw [← (Placement.placed_build f).size] at room
  refine ⟨fun patches report m' ran idle => ?_, fun text silent => ?_⟩
  · obtain rfl := Batch.run_idle regular loaded room ran idle
    refine ⟨rfl, f, ?_, by rw [spelled, List.append_nil]⟩
    rw [Module.toFile_eq_view (Placement.readable_build accepted room),
      Placement.view_build accepted room, ← writable.version]
  · refine ⟨[], Batch.ofPlan_of_silent silent, ?_⟩
    exact Batch.run_eq_ok.mpr ⟨[], _, rfl, .done, rfl, (Batch.tidy_loaded regular loaded room).symm⟩

namespace Sample

theorem ofBytes_encode : ModuleFile.ofBytes file.encode = .ok file := by
  have writable : file.Writable := by decide
  rw [ModuleFile.ofBytes_eq_ok, ModuleFile.decode_eq_ok, List.append_nil]
  exact ⟨writable, rfl⟩

theorem run_missing :
    (Batch.run [.ofOperation missing]).apply file.build =
      (.ok ⟨[], [(missing.name, .symbolNotFound "Counter::gone")]⟩, file.build) := by
  have unknown : (Plan.MethodRef.mk "Counter" "gone").resolve file.build.toTables =
      .error (.symbolNotFound "Counter::gone") := by decide +kernel
  have refused : (Edit.operation missing).apply file.build =
      (.error (.symbolNotFound "Counter::gone"), file.build) :=
    (Edit.apply_check_bind ..).trans (by simp only [unknown])
  have tidied := Batch.tidy_loaded (ModuleFile.regular_of_ofBytes ofBytes_encode)
    (ModuleFile.load_eq_ok.mpr ⟨checked, rfl⟩) room
  refine Batch.run_eq_ok.mpr ⟨[(.ofOperation missing, some (.symbolNotFound "Counter::gone"))],
    file.build, rfl, .skipped (.inl ⟨_, refused⟩) rfl .done, rfl, tidied.symm⟩

theorem silent : ∀ line ∈ Text.lines "# to do\n ".toList, Plan.Silent line := by
  have lines : Text.lines "# to do\n ".toList = ["# to do".toList, [' ']] := by decide
  rw [lines]
  refine List.forall_mem_cons.mpr ⟨.inr ⟨[], " to do".toList, nofun, rfl⟩, ?_⟩
  exact List.forall_mem_singleton.mpr (.inl (List.forall_mem_singleton.mpr (by decide)))

end Sample

/-- Instances: a plan with an operation that is skipped, and one of a comment and a blank line. -/
theorem idle_batch_reproduces_sample :
    (∃ f, Sample.file.build.toFile = .ok f ∧ f.encode = Sample.file.encode) ∧
      ∃ patches, Batch.ofPlan "# to do\n " = .ok patches ∧
        (Batch.run patches).apply Sample.file.build = (.ok .empty, Sample.file.build) := by
  have both := idle_batch_reproduces Sample.ofBytes_encode
    (ModuleFile.load_eq_ok.mpr ⟨Sample.checked, rfl⟩) (by decide +kernel)
  exact ⟨(both.1 _ _ _ Sample.run_missing rfl).2, both.2 _ Sample.silent⟩

end Graft
