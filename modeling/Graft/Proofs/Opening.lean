import Graft.Proofs.Codec.Canonical
import Graft.Proofs.Storable

/-!
# Modules that were opened

Reading makes sure of two things that loading does not look at: flags have a meaning, and methods
have numbers. So a module that was loaded from such a file is storable.
-/

namespace Graft

/-! ## Flags -/

/-- Every flag that is declared has a meaning. -/
structure Tables.FlagsKnown {μ β : Type} (t : Tables μ β) : Prop where
  types : ∀ d ∈ t.types, d.flags.known
  fields : ∀ d ∈ t.fields, d.flags.known
  methods : ∀ d ∈ t.methods, d.flags.known

namespace Tables

variable {μ μ' β β' : Type} {t : Tables μ β} {t' : Tables μ' β'}

/-- The flags of types are in their records. -/
theorem types_known_of_records (records : t'.records = t.records)
    (h : ∀ d ∈ t.types, d.flags.known) : ∀ d ∈ t'.types, d.flags.known := by
  have known : ∀ r ∈ t'.records, r.flags.known := by
    rw [records]
    intro r hr
    obtain ⟨d, hd, rfl⟩ := Array.mem_map.mp hr
    exact h d hd
  exact fun d hd => known d.record (Array.mem_map_of_mem hd)

namespace FlagsKnown

/-- Flags are all in the entries. -/
theorem of_header (h : t.FlagsKnown) (same : t'.header = t.header) : t'.FlagsKnown := by
  refine ⟨types_known_of_records (records_eq_of_header same) h.types, ?_, ?_⟩
  · rw [fields_eq_of_header same]
    exact h.fields
  · have known : ∀ e ∈ t'.methods.map Method.head, e.flags.known := by
      rw [heads_eq_of_header same]
      intro e he
      obtain ⟨d, hd, rfl⟩ := Array.mem_map.mp he
      exact h.methods d hd
    exact fun d hd => known d.head (Array.mem_map_of_mem hd)

theorem method (h : t.FlagsKnown) {k : MethodId} {d : Method β} (hd : t.method? k = some d) :
    d.flags.known :=
  h.methods d (Array.mem_of_getElem? hd)

end FlagsKnown

end Tables

theorem Module.flagsKnown_view {m : Module} : m.view.FlagsKnown ↔ m.FlagsKnown :=
  ⟨fun h => h.of_header header_view.symm, fun h => h.of_header header_view⟩

/-! ## Files -/

namespace ModuleFile

variable {f : ModuleFile}

/-- Flags have a meaning, and there are no more methods than numbers for them. -/
structure Regular (f : ModuleFile) : Prop where
  flags : f.FlagsKnown
  numbers : f.methods.size ≤ UInt32.size

theorem Writable.flagsKnown (h : f.Writable) : f.FlagsKnown where
  types t ht := (h.types.2 t ht).flags
  fields d hd := (h.fields.2 d hd).flags
  methods d hd := (h.methods.2 d hd).flags

/-- A file that was read is regular. -/
theorem regular_of_ofBytes {bytes : List UInt8} (read : ofBytes bytes = .ok f) : f.Regular := by
  obtain ⟨writable, -⟩ := decode_eq_ok.mp (ofBytes_eq_ok.mp read)
  exact ⟨writable.flagsKnown, Nat.le_of_lt writable.methods.1⟩

end ModuleFile

/-! ## Modules -/

namespace Module

variable {m : Module}

/-- The module was loaded from a regular file, such as one that was read. -/
def Loaded (m : Module) : Prop := ∃ f : ModuleFile, f.Regular ∧ f.load = .ok m

theorem loaded_of_ofBytes {bytes : List UInt8} {f : ModuleFile}
    (read : ModuleFile.ofBytes bytes = .ok f) (load : f.load = .ok m) : m.Loaded :=
  ⟨f, ModuleFile.regular_of_ofBytes read, load⟩

theorem Loaded.storable (h : m.Loaded) (room : m.arena.size ≤ Arena.capacity) : m.Storable := by
  obtain ⟨f, regular, loaded⟩ := h
  obtain ⟨accepted, rfl⟩ := ModuleFile.load_eq_ok.mp loaded
  exact Placement.storable_build accepted (Placement.addressed_of_size regular.numbers) room

/-- Loading keeps the flags of the file. -/
theorem Loaded.flagsKnown (h : m.Loaded) (room : m.arena.size ≤ Arena.capacity) :
    m.FlagsKnown := by
  obtain ⟨f, regular, loaded⟩ := h
  obtain ⟨accepted, rfl⟩ := ModuleFile.load_eq_ok.mp loaded
  rw [← flagsKnown_view, Placement.view_build accepted room]
  exact regular.flags

end Module

/-! ## The sample -/

namespace Sample

theorem loaded : file.build.Loaded := by
  have writable : file.Writable := by decide +kernel
  have read : ModuleFile.ofBytes file.encode = .ok file := by
    rw [ModuleFile.ofBytes_eq_ok, ModuleFile.decode_eq_ok, List.append_nil]
    exact ⟨writable, rfl⟩
  exact Module.loaded_of_ofBytes read (ModuleFile.load_eq_ok.mpr ⟨checked, rfl⟩)

theorem room : file.build.arena.size ≤ Arena.capacity := by decide

end Sample

end Graft
