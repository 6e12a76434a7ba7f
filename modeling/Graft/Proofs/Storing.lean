import Graft.Proofs.Loading
import Graft.Proofs.Sample

/-!
# Loading loses nothing

What a file would say of a module is its view: the tables, with every body seen by position. A
module can be stored if its bodies refer to their own handles only, and then its file is its view.
A module that was loaded is seen as the file it was loaded from.
-/

namespace Graft

/-- A method with its body seen by position. -/
def Method.view (a : Arena) (d : Method LiveBody) : Method FileBody :=
  { d with body := d.body.map (LiveBody.view a) }

namespace Module

variable {m : Module} {k : MethodId} {d : Method LiveBody}

/-- What a file says of the module. -/
def view (m : Module) : ModuleFile where
  version := ModuleFile.currentVersion
  name := m.name
  types := m.records
  fields := m.fields
  methods := m.methods.map (Method.view m.arena)

/-- Every body, also one of a method without a number, refers to its own handles only. -/
def Readable (m : Module) : Prop :=
  ∀ d ∈ m.methods, ∀ b, d.body = some b → b.Readable m.arena

theorem fileMethod_eq_view (h : ∀ b, d.body = some b → b.Readable m.arena) :
    m.fileMethod k d = .ok (d.view m.arena) := by
  obtain ⟨owner, name, flags, signature, body⟩ := d
  cases body with
  | none => rfl
  | some b =>
    have readable := h b rfl
    exact bind_eq_ok.mpr ⟨_, fileBody_eq readable.toLinked readable.stored, rfl⟩

theorem toFile_eq_view (h : m.Readable) : m.toFile = .ok m.view := by
  unfold toFile
  refine bind_eq_ok.mpr ⟨m.methods.toList.map (Method.view m.arena), ?_, ?_⟩
  · exact mapM_zipIdx_eq_ok_map fun i d hd => fileMethod_eq_view (h d (Array.mem_toList_iff.mp hd))
  · show Except.ok _ = Except.ok _
    rw [view, ← Array.toList_map]

end Module

/-! ## Loaded modules -/

namespace Placement

variable {f : ModuleFile}

theorem readable_build (h : f.check = .ok ()) (room : f.build.arena.size ≤ Arena.capacity) :
    f.build.Readable := by
  intro d hd b hb
  obtain ⟨i, hi⟩ := Array.mem_iff_getElem?.mp hd
  rw [(placed_build f).method] at hi
  obtain ⟨e, he, rfl⟩ := Option.map_eq_some_iff.mp hi
  obtain ⟨c, hc, rfl⟩ := Option.map_eq_some_iff.mp hb
  exact (placedAt_build h room (Array.getElem?_toList.symm.trans he) hc).readable

theorem view_placeAt {d : Method FileBody} {a : Arena} {n : Nat}
    (h : ∀ c, d.body = some c → LiveBody.view a (c.place n) = c) :
    (d.placeAt n).view a = d := by
  obtain ⟨owner, name, flags, signature, body⟩ := d
  cases body with
  | none => rfl
  | some c => exact congrArg (fun c => Method.mk owner name flags signature (some c)) (h c rfl)

/-- The view of a loaded module is the file, with the version in which modules are written. -/
theorem view_build (h : f.check = .ok ()) (room : f.build.arena.size ≤ Arena.capacity) :
    f.build.view = { f with version := ModuleFile.currentVersion } := by
  have methods : f.build.methods.map (Method.view f.build.arena) = f.methods := by
    refine Array.ext_getElem? fun i => ?_
    rw [Array.getElem?_map, (placed_build f).method, Option.map_map, Array.getElem?_toList]
    cases hd : f.methods[i]? with
    | none => rfl
    | some d =>
      exact congrArg some (view_placeAt fun c hc => (placedAt_build h room hd hc).view_place)
  rw [Module.view, name_build, records_build, fields_build, methods]

end Placement

/-- Loading loses nothing: a file of the current version that loads is stored again as it was. -/
theorem ModuleFile.toFile_of_load {f : ModuleFile} {m : Module}
    (version : f.version = currentVersion) (loaded : f.load = .ok m)
    (room : slotCount f.methods.toList ≤ Arena.capacity) : m.toFile = .ok f := by
  obtain ⟨check, rfl⟩ := load_eq_ok.mp loaded
  rw [← (Placement.placed_build f).size] at room
  rw [Module.toFile_eq_view (Placement.readable_build check room),
    Placement.view_build check room, ← version]

/-- An instance: the sample, whose body has branches and an exception range. -/
theorem ModuleFile.toFile_of_load_sample :
    ∃ m, Sample.file.load = .ok m ∧ m.toFile = .ok Sample.file := by
  have loaded : Sample.file.load = .ok Sample.file.build :=
    load_eq_ok.mpr ⟨by decide +kernel, rfl⟩
  exact ⟨_, loaded, toFile_of_load rfl loaded (by decide +kernel)⟩

end Graft
