import Graft.Proofs.Lockstep

/-!
# What a batch writes can be opened

The file of a storable module is accepted by loading, but for its bytes to be read back its flags
must have a meaning and its parts must not be too long for their lengths to be written. The lengths
are up to those who write plans; that all flags have a meaning is kept by whatever a plan asks for.
-/

namespace Graft

open Codec

/-! ## Flags -/

/-- Access bits have a meaning. -/
theorem MethodFlags.known_makePublic {f : MethodFlags} (h : f.known) : f.makePublic.known := by
  have same : f.makePublic.bits &&& ~~~all = f.bits &&& ~~~all :=
    makePublic_and (by decide) (by decide)
  rwa [known, same]

namespace Module

variable {m : Module} {k : MethodId} {d : Method LiveBody}

theorem flagsKnown_addMethod (h : m.FlagsKnown) (known : d.flags.known) :
    (m.addMethod d).FlagsKnown where
  types := by
    have records : (m.addMethod d).records = m.records := Tables.records_enterMethod
    exact Tables.types_known_of_records records h.types
  fields := h.fields
  methods e he := by
    rcases Array.mem_push.mp he with he | rfl
    · exact h.methods e he
    · exact known

theorem flagsKnown_setFlags (h : m.FlagsKnown) {g : MethodFlags → MethodFlags}
    (known : ∀ f, f.known → (g f).known) :
    (m.modifyMethod k fun d => { d with flags := g d.flags }).FlagsKnown where
  types := h.types
  fields := h.fields
  methods := forall_mem_modify (f := fun d : Method LiveBody => { d with flags := g d.flags })
    h.methods fun d => known d.flags

end Module

/-! ## Operations -/

namespace Edit

variable {α : Type} {m m' : Module} {k template : MethodId} {owner : TypeId} {name : String}

/-- An edit of one body declares nothing. -/
theorem flagsKnown_of_contained {e : Edit α} {a : α} (he : e.Contained k) (claimed : m.Claimed)
    (h : m.FlagsKnown) (ok : e.apply m = (.ok a, m')) (room : m'.arena.size ≤ Arena.capacity) :
    m'.FlagsKnown :=
  h.of_header (Tables.header_of_declarations (he.keeps_of_eq claimed ok room).2.declarations)

theorem flagsKnown_makePublic (h : m.FlagsKnown) (ok : (makePublic k).apply m = (.ok (), m')) :
    m'.FlagsKnown := by
  obtain rfl : m.modifyMethod k (fun d => { d with flags := d.flags.makePublic }) = m' :=
    congrArg Prod.snd ok
  exact Module.flagsKnown_setFlags h fun f => MethodFlags.known_makePublic

/-- A copy has the flags of its template. -/
theorem flagsKnown_cloneMethod (linked : m.Linked) (h : m.FlagsKnown)
    (ok : (cloneMethod owner template name).apply m = (.ok (), m'))
    (room : m'.arena.size ≤ Arena.capacity) : m'.FlagsKnown := by
  obtain ⟨k, m₁, clone, rest⟩ := apply_bind_ok.mp ok
  obtain ⟨d, hd, rfl, rfl⟩ := apply_cloneSignature_blank clone
  have flags : d.flags.known := h.method hd
  have added : (m.addMethod (blankCopy m owner name d)).FlagsKnown :=
    Module.flagsKnown_addMethod h flags
  have blank : (blankCopy m owner name d).Blank := blank_blankCopy
  obtain ⟨claimed, frame⟩ := frame_localsCopied (d := d) (k := m.nextMethod)
    (linked.addMethod blank).claimed
  -- filling in the copy declares nothing
  have declared := added.of_header (Tables.header_of_declarations frame.declarations)
  rw [apply_get_bind] at rest
  split at rest
  · exact flagsKnown_of_contained contained_copyBody.discard claimed declared rest room
  · cases rest
    exact declared

/-- Whatever an operation does to a module, its flags have a meaning afterwards. -/
theorem flagsKnown_operation {o : Plan.Operation} (linked : m.Linked) (h : m.FlagsKnown)
    (ok : (operation o).apply m = (.ok (), m')) (room : m'.arena.size ≤ Arena.capacity) :
    m'.FlagsKnown := by
  cases effect_operation ok with
  | body contained _ ok => exact flagsKnown_of_contained contained linked.claimed h ok room
  | access ok => exact flagsKnown_makePublic h ok
  | copy _ ok => exact flagsKnown_cloneMethod linked h ok room

end Edit

/-! ## Batches -/

namespace Batch

variable {m : Module} {operations : List Plan.Operation}

/-- What one attempt preserves. -/
theorem flagsKnown_attempt {o : Plan.Operation} (linked : m.Linked) (h : m.FlagsKnown)
    (room : ((Edit.operation o).apply m).2.arena.size ≤ Arena.capacity) :
    ((attempt (.ofOperation o)).apply m).2.FlagsKnown := by
  obtain ⟨m', ok, -, run⟩ | ⟨fault, run⟩ := apply_attempt (.ofOperation o) m <;> rw [run]
  · have ok : (Edit.operation o).apply m = (.ok (), m') := ok
    rw [ok] at room
    have known := Edit.flagsKnown_operation linked h ok room
    exact ⟨known.types, known.fields, known.methods⟩
  · exact h

/-- What a run of patches preserves. -/
theorem flagsKnown_runFrom (storable : m.Storable) (h : m.FlagsKnown)
    (unlabelled : ∀ o ∈ operations, o.Unlabelled) (report : Report)
    (room : ∀ d ∈ drafts (operations.map .ofOperation) m, d.arena.size ≤ Arena.capacity) :
    ((runFrom report (operations.map .ofOperation)).apply m).2.FlagsKnown := by
  refine (runFrom_preserves (P := fun m => m.Storable ∧ m.FlagsKnown) (fun m p hp h room => ?_)
    report ⟨storable, h⟩ room).2
  obtain ⟨o, ho, rfl⟩ := List.mem_map.mp hp
  exact ⟨storable_attempt h.1 (unlabelled o ho) room, flagsKnown_attempt h.1.linked h.2 room⟩

end Batch

/-! ## Lengths -/

/-- Can the texts of a type be written with their lengths? -/
structure TypeDef.Short (t : TypeRecord) : Prop where
  space : Fits t.space.utf8ByteSize
  name : Fits t.name.utf8ByteSize

/-- Can the texts and sequences of a method be written with their lengths? -/
structure Method.Short (d : Method FileBody) : Prop where
  name : Fits d.name.utf8ByteSize
  signature : d.signature.Writable
  body : ∀ b, d.body = some b → FileBody.Writable b

namespace ModuleFile

/-- Can all texts and sequences of a file be written with their lengths? -/
structure Short (f : ModuleFile) : Prop where
  name : Fits f.name.utf8ByteSize
  types : Fits f.types.size ∧ ∀ t ∈ f.types, t.Short
  fields : Fits f.fields.size ∧ ∀ d ∈ f.fields, Fits d.name.utf8ByteSize
  methods : Fits f.methods.size ∧ ∀ d ∈ f.methods, d.Short

variable {f : ModuleFile}

/-- What else it takes to write a file so that it can be read back. -/
theorem writable_iff :
    f.Writable ↔ f.version = currentVersion ∧ f.FlagsKnown ∧ f.Short where
  mp h := by
    refine ⟨h.version, h.flagsKnown, h.name, ⟨h.types.1, ?_⟩, ⟨h.fields.1, ?_⟩, h.methods.1, ?_⟩
    · exact fun t ht => ⟨(h.types.2 t ht).space, (h.types.2 t ht).name⟩
    · exact fun d hd => (h.fields.2 d hd).name
    · intro d hd
      have writable := h.methods.2 d hd
      exact ⟨writable.name, writable.signature, writable.body⟩
  mpr := by
    rintro ⟨version, flags, short⟩
    refine ⟨version, short.name, ⟨short.types.1, ?_⟩, ⟨short.fields.1, ?_⟩, short.methods.1, ?_⟩
    · intro t ht
      exact ⟨(short.types.2 t ht).space, (short.types.2 t ht).name, flags.types t ht⟩
    · exact fun d hd => ⟨short.fields.2 d hd, flags.fields d hd⟩
    · intro d hd
      have fits := short.methods.2 d hd
      exact ⟨fits.name, flags.methods d hd, fits.signature, fits.body⟩

end ModuleFile

/-- The file of a storable module is built into a module with this file. It can be read back if its
texts and sequences are short enough. -/
theorem Module.Storable.reopens {m : Module} (storable : m.Storable) (flags : m.FlagsKnown) :
    m.view.build.toFile = .ok m.view ∧
      (m.view.Short → ModuleFile.decode m.view.encode = .ok (m.view, [])) ∧
      m.view.load = .ok m.view.build := by
  refine ⟨?_, fun short => ?_, ?_⟩
  · rw [toFile_eq_view storable.build.readable, storable.view_build]
  · have writable : m.view.Writable :=
      ModuleFile.writable_iff.mpr ⟨rfl, flagsKnown_view.mpr flags, short⟩
    exact ModuleFile.decode_eq_ok.mpr ⟨writable, (List.append_nil _).symm⟩
  · exact ModuleFile.load_eq_ok.mpr ⟨storable.accepted, rfl⟩

/-- A batch of a plan that runs to its end leaves what the file of its last draft is built into. -/
theorem Batch.exists_last_draft {m m' : Module} {text : String} {patches : List Patch} {report : Report}
    (loaded : m.Loaded) (room : m.arena.size ≤ Arena.capacity) (plan : ofPlan text = .ok patches)
    (fits : Fits patches m) (ran : (run patches).apply m = (.ok report, m')) :
    ∃ draft : Module, (runFrom .empty patches).apply m.clearTouched = (.ok report, draft) ∧
      Edit.compact.apply draft = (.ok (), m') ∧ draft.Storable ∧ draft.FlagsKnown ∧
      m' = draft.view.build := by
  obtain ⟨operations, read, rfl⟩ := exists_operations plan
  have unlabelled := Plan.unlabelled_of_read read
  have storable := loaded.storable room
  obtain ⟨draft, done, rfl⟩ := (apply_run_ok storable unlabelled fits.drafts).mp ran
  have last := storable_runFrom storable.clearTouched unlabelled .empty fits.drafts
  have flags := flagsKnown_runFrom storable.clearTouched (loaded.flagsKnown room) unlabelled .empty
    fits.drafts
  have untouched := touched_runFrom .empty (operations.map .ofOperation) (m := m.clearTouched) rfl
  rw [done] at last flags untouched
  exact ⟨draft, done, apply_compact last untouched, last, flags, rfl⟩

/-- When a batch of a plan has run to its end, the module has been tidied up. It can be stored, and
the bytes of its file are read and loaded as the same module again, unless a text or a sequence is
too long. -/
theorem reopen_after_batch {m m' : Module} {text : String} {patches : List Patch} {report : Report}
    (loaded : m.Loaded) (room : m.arena.size ≤ Arena.capacity)
    (plan : Batch.ofPlan text = .ok patches) (fits : Batch.Fits patches m)
    (ran : (Batch.run patches).apply m = (.ok report, m')) :
    (∃ draft, (Batch.runFrom .empty patches).apply m.clearTouched = (.ok report, draft) ∧
      Edit.compact.apply draft = (.ok (), m')) ∧
    ∃ f, m'.toFile = .ok f ∧ (f.Short → ModuleFile.decode f.encode = .ok (f, [])) ∧
      f.load = .ok m' := by
  -- the module is built from the file of the last draft, so this is its file too
  obtain ⟨draft, done, tidied, storable, flags, rfl⟩ :=
    Batch.exists_last_draft loaded room plan fits ran
  exact ⟨⟨draft, done, tidied⟩, draft.view, storable.reopens flags⟩

/-- An instance: the plan puts an instruction into the sample, and names a method that is not there.
-/
theorem reopen_after_batch_sample :
    Sample.padded.build.toFile = .ok Sample.padded ∧
      ModuleFile.decode Sample.padded.encode = .ok (Sample.padded, []) ∧
      Sample.padded.load = .ok Sample.padded.build := by
  have stored : Sample.padded.build.toFile = .ok Sample.padded := by
    have accepted : Sample.padded.check = .ok () := by decide +kernel
    have room : Sample.padded.build.arena.size ≤ Arena.capacity := by decide
    rw [Module.toFile_eq_view (Placement.readable_build accepted room),
      Placement.view_build accepted room]
    rfl
  have writable : Sample.padded.Writable := by decide +kernel
  obtain ⟨-, f, stored', read, loaded⟩ := reopen_after_batch Sample.loaded Sample.room
    Sample.ofPlan_operations Sample.fits_operations Sample.run_operations
  obtain rfl : Sample.padded = f := Except.ok.inj (stored.symm.trans stored')
  exact ⟨stored, read (ModuleFile.writable_iff.mp writable).2.2, loaded⟩

end Graft
