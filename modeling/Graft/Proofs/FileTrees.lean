import Graft.FileTree
import Graft.Proofs.Checks

/-!
# Writing into a file tree

A write changes one file or none. If it succeeds, its route leads to what was written, and every
other route that led to a file still leads to one; if it fails, no file has changed, although
folders on the way may have been made. Folders that are there stay there, so whatever could be
walked still can.
-/

namespace Graft.FileTree

variable {t t' : FileTree} {r : Route} {p q folder : Place} {name path other : String}
  {names : List String} {bytes old : List UInt8} {making makeFolders : Bool} {cause : TransferCause}

/-! ## Files -/

@[simp] theorem file?_put_self : (t.put p bytes).file? p = some bytes := by
  have gone : (t.files.filter (·.1 != p)).lookup p = none := by
    refine List.lookup_eq_none_iff.mpr fun entry he => ?_
    have apart : entry.1 ≠ p := by simpa using (List.mem_filter.mp he).2
    simpa using apart.symm
  rw [file?, put, List.lookup_append, gone, List.lookup_cons_self, Option.none_or]

/-- Only the file that is put in place changes. -/
theorem file?_put_of_ne (ne : q ≠ p) : (t.put p bytes).file? q = t.file? q := by
  have kept : ∀ files : List (Place × List UInt8),
      (files.filter (·.1 != p)).lookup q = files.lookup q := by
    intro files
    induction files with
    | nil => rfl
    | cons entry files ih =>
      obtain ⟨at', contents⟩ := entry
      by_cases same : at' = p
      · have apart : (q == at') = false := by simpa [same] using ne
        rw [List.filter_cons_of_neg (by simp [same]), ih, List.lookup_cons, apart]
      · rw [List.filter_cons_of_pos (by simpa using same), List.lookup_cons, List.lookup_cons, ih]
  have apart : (q == p) = false := by simpa using ne
  have last : [(p, bytes)].lookup q = none := by rw [List.lookup_cons, apart, List.lookup_nil]
  rw [file?, put, List.lookup_append, kept, last, Option.or_none, file?]

/-! ## Folders that stay -/

/-- The program works in the same folder, and what was a folder is one. -/
structure Keeps (t t' : FileTree) : Prop where
  home : t'.home = t.home
  folder : ∀ p, t.isFolder p = true → t'.isFolder p = true

theorem Keeps.refl (t : FileTree) : t.Keeps t := ⟨rfl, fun _ => id⟩

theorem Keeps.trans {t₁ t₂ : FileTree} (first : t.Keeps t₁) (second : t₁.Keeps t₂) : t.Keeps t₂ :=
  ⟨second.home.trans first.home, fun p hp => second.folder p (first.folder p hp)⟩

theorem isFolder_eq_true : t.isFolder p = true ↔
    p <+: t.home ∨ (∃ q ∈ t.folders, p <+: q) ∨ ∃ f ∈ t.files, p <+: f.1 ∧ p ≠ f.1 := by
  simp [isFolder, or_assoc]

/-- A folder lies in itself, so those that the new one stands for are still there. -/
theorem keeps_makeFolder : t.Keeps (t.makeFolder p) := by
  refine ⟨rfl, fun q hq => ?_⟩
  rw [isFolder_eq_true] at hq ⊢
  rcases hq with home | ⟨d, hd, inside⟩ | file
  · exact .inl home
  · refine .inr (.inl ?_)
    by_cases stands : d <+: p
    · exact ⟨p, List.mem_cons_self, inside.trans stands⟩
    · have kept : d ∈ t.folders.filter (! ·.isPrefixOf p) :=
        List.mem_filter.mpr ⟨hd, by simpa [← Bool.not_eq_true] using stands⟩
      exact ⟨d, List.mem_cons_of_mem p kept, inside⟩
  · exact .inr (.inr file)

theorem keeps_put : t.Keeps (t.put p bytes) := by
  refine ⟨rfl, fun q hq => ?_⟩
  rw [isFolder_eq_true] at hq ⊢
  rcases hq with home | made | ⟨f, hf, inside⟩
  · exact .inl home
  · exact .inr (.inl made)
  · refine .inr (.inr ?_)
    by_cases same : f.1 = p
    · exact ⟨(p, bytes), List.mem_append_right _ List.mem_cons_self, same ▸ inside⟩
    · have kept : f ∈ t.files.filter (·.1 != p) :=
        List.mem_filter.mpr ⟨hf, by simpa using same⟩
      exact ⟨f, List.mem_append_left _ kept, inside⟩

/-- Folders that are made on the way do not take the place of files. -/
theorem provide_keeps (t : FileTree) (making : Bool) (folder : Place) (names : List String) :
    t.Keeps (t.provide making folder names).1 ∧
      (t.provide making folder names).1.files = t.files := by
  induction names generalizing t making folder with
  | nil => exact ⟨.refl t, rfl⟩
  | cons name names ih =>
    rw [provide]
    cases folder.step name with
    | error cause => exact ⟨.refl t, rfl⟩
    | ok p =>
      dsimp only
      split
      · exact ih t making p
      · split
        · exact ⟨.refl t, rfl⟩
        · obtain ⟨keeps, files⟩ := ih (t.makeFolder p) true p
          exact ⟨keeps_makeFolder.trans keeps, files⟩

theorem provideFolder_keeps (t : FileTree) (r : Route) :
    t.Keeps (t.provideFolder r).1 ∧ (t.provideFolder r).1.files = t.files := by
  rw [provideFolder]
  split
  · exact ⟨.refl t, rfl⟩
  · exact provide_keeps t false (t.start r) _

/-! ## Walking -/

theorem enter_eq_ok : t.enter folder name = .ok p ↔
    folder.step name = .ok p ∧ t.isFolder p = true := by
  rw [enter, bind_eq_ok]
  constructor
  · rintro ⟨p', stepped, entered⟩
    split at entered
    · rename_i there
      cases entered
      exact ⟨stepped, there⟩
    · split at entered <;> cases entered
  · rintro ⟨stepped, there⟩
    exact ⟨p, stepped, by rw [if_pos there]; rfl⟩

theorem Keeps.enter (keeps : t.Keeps t') (h : t.enter folder name = .ok p) :
    t'.enter folder name = .ok p := by
  obtain ⟨stepped, there⟩ := enter_eq_ok.mp h
  exact enter_eq_ok.mpr ⟨stepped, keeps.folder p there⟩

theorem Keeps.walk (keeps : t.Keeps t') (h : names.foldlM t.enter folder = .ok p) :
    names.foldlM t'.enter folder = .ok p := by
  induction names generalizing folder with
  | nil => exact h
  | cons name names ih =>
    rw [List.foldlM_cons] at h ⊢
    obtain ⟨next, entered, rest⟩ := bind_eq_ok.mp h
    exact bind_eq_ok.mpr ⟨next, keeps.enter entered, ih rest⟩

/-- What can be walked still can. -/
theorem Keeps.approach (keeps : t.Keeps t') {found : Place × String}
    (h : t.approach r = .ok found) : t'.approach r = .ok found := by
  rw [FileTree.approach] at h ⊢
  have start : t'.start r = t.start r := by rw [FileTree.start, FileTree.start, keeps.home]
  cases spelling : spellingFault? r r.size with
  | some cause =>
    rw [spelling] at h
    cases h
  | none =>
    rw [spelling] at h
    cases last : r.names.getLast? with
    | none =>
      rw [last] at h
      exact h
    | some name =>
      rw [last] at h
      obtain ⟨folder, walked, ⟨⟩⟩ := bind_eq_ok.mp h
      rw [start]
      exact bind_eq_ok.mpr ⟨folder, keeps.walk walked, rfl⟩

/-! ## Reading and writing -/

theorem Keeps.locate (keeps : t.Keeps t') (h : t.locate r = .ok p) : t'.locate r = .ok p := by
  obtain ⟨⟨folder, name⟩, approached, located⟩ := bind_eq_ok.mp h
  refine bind_eq_ok.mpr ⟨(folder, name), keeps.approach approached, ?_⟩
  dsimp only at located ⊢
  split
  · rename_i slash
    rw [if_pos slash] at located
    exact keeps.enter located
  · rename_i slash
    rw [if_neg slash] at located
    exact located

theorem read_eq_ok : t.read path = .ok bytes ↔
    ∃ p, t.locate (.ofString path) = .ok p ∧ t.file? p = some bytes := by
  rw [read, bind_eq_ok]
  refine exists_congr fun p => and_congr_right fun _ => ?_
  cases t.file? p with
  | none => exact iff_of_false nofun nofun
  | some contents => simp [pure, Except.pure]

/-- A file is put where its route leads, and no folder is. -/
theorem locate_of_target (h : t.target r = .ok p) : t.locate r = .ok p := by
  obtain ⟨⟨folder, name⟩, approached, aimed⟩ := bind_eq_ok.mp h
  refine bind_eq_ok.mpr ⟨(folder, name), approached, ?_⟩
  dsimp only at aimed ⊢
  split at aimed
  · cases aimed
  · obtain ⟨p', stepped, aimed⟩ := bind_eq_ok.mp aimed
    split at aimed
    · cases aimed
    · rename_i slash
      split at aimed
      · cases aimed
      · cases aimed
        rw [if_neg slash]
        exact stepped

theorem prepare_keeps (t : FileTree) (makeFolders : Bool) (r : Route) :
    t.Keeps (t.prepare makeFolders r).1 ∧ (t.prepare makeFolders r).1.files = t.files := by
  rw [prepare]
  split
  · exact provideFolder_keeps t r
  · exact ⟨.refl t, rfl⟩

/-- A write that succeeds puts the file in place once its folder is there. -/
theorem write_eq_ok (h : t.write makeFolders path bytes = (t', .ok ())) :
    ∃ t₁ p, t.Keeps t₁ ∧ t₁.files = t.files ∧ t₁.locate (.ofString path) = .ok p ∧
      t' = t₁.put p bytes := by
  obtain ⟨keeps, files⟩ := prepare_keeps t makeFolders (Route.ofString path).folder
  rw [write] at h
  split at h
  rename_i t₁ prepared prepares
  rw [prepares] at keeps files
  split at h
  · rename_i p aimed
    obtain ⟨-, -, aimed⟩ := bind_eq_ok.mp aimed
    obtain ⟨-, -, aimed⟩ := bind_eq_ok.mp aimed
    cases h
    exact ⟨t₁, p, keeps, files, locate_of_target aimed, rfl⟩
  · cases h

/-- A write that fails changes no file, and no folder either unless it was to make them. -/
theorem write_eq_error (h : t.write makeFolders path bytes = (t', .error cause)) :
    t.Keeps t' ∧ t'.files = t.files ∧ (makeFolders = false → t' = t) := by
  obtain ⟨keeps, files⟩ := prepare_keeps t makeFolders (Route.ofString path).folder
  rw [write] at h
  split at h
  rename_i t₁ prepared prepares
  rw [prepares] at keeps files
  split at h
  · cases h
  · cases h
    refine ⟨keeps, files, ?_⟩
    rintro rfl
    exact (congrArg Prod.fst prepares).symm

/-- What was written is read. -/
theorem read_write (h : t.write makeFolders path bytes = (t', .ok ())) :
    t'.read path = .ok bytes := by
  obtain ⟨t₁, p, -, -, located, rfl⟩ := write_eq_ok h
  exact read_eq_ok.mpr ⟨p, keeps_put.locate located, file?_put_self⟩

/-- Whatever else could be read still can. Another route may lead to the same file. -/
theorem read_write_other (h : t.write makeFolders path bytes = (t', .ok ()))
    (before : t.read other = .ok old) : t'.read other = .ok old ∨ t'.read other = .ok bytes := by
  obtain ⟨t₁, p, keeps, files, -, rfl⟩ := write_eq_ok h
  obtain ⟨q, located, there⟩ := read_eq_ok.mp before
  have located' : (t₁.put p bytes).locate (.ofString other) = .ok q :=
    (keeps.trans keeps_put).locate located
  by_cases same : q = p
  · exact .inr (read_eq_ok.mpr ⟨q, located', by rw [same, file?_put_self]⟩)
  · refine .inl (read_eq_ok.mpr ⟨q, located', ?_⟩)
    rw [file?_put_of_ne same, file?, files]
    exact there

end Graft.FileTree
