import Graft.Proofs.Storable
import Graft.Proofs.Upkeep

/-!
# Opening again what was written

A module that is in order is written as a file in order, as far as the library keeps it so. Labels
become positions of the body, and whatever could be written can be opened again, unless a signature
or a catch clause mentions a type that does not exist.
-/

namespace Graft

/-! ## Written bodies -/

section

variable {μ β L L' ε : Type} {t : Tables μ β} {f : L → Except ε L'}

/-- What an instruction mentions has nothing to do with its labels. -/
theorem Instruction.Resolves.mapLabelsM {i : Instruction L} {j : Instruction L'}
    (h : i.Resolves t) (mapped : i.mapLabelsM f = .ok j) : j.Resolves t := by
  cases i
  case br | brIf | brCmp | leave =>
    obtain ⟨l, -, rfl⟩ := map_eq_ok.mp mapped
    exact .of_none rfl rfl rfl
  case switch =>
    obtain ⟨ls, -, rfl⟩ := map_eq_ok.mp mapped
    exact .of_none rfl rfl rfl
  all_goals
    cases mapped
    exact ⟨h.field, h.method, h.type⟩

end

namespace Module

variable {m : Module} {k : MethodId} {b : LiveBody} {c : FileBody} {f : ModuleFile}

/-- What a body is written as: the same locals, the instructions and ranges that its handles stand
for with positions for labels, and no position that leads out of it. -/
structure Written (m : Module) (b : LiveBody) (c : FileBody) : Prop where
  locals : c.locals = b.locals.map LocalSlot.type
  code : ∀ j ∈ c.code, ∃ id i, ∃ place : InsnId → Except Fault UInt32,
    m.instruction? id = some i ∧ i.mapLabelsM place = .ok j
  ranges : ∀ s ∈ c.ranges, ∃ r ∈ b.ranges, ∃ place : InsnId → Except Fault UInt32,
    r.mapLabelsM place = .ok s
  closed : c.Closed

theorem written_of_fileBody (h : m.fileBody k b = .ok c) : m.Written b c := by
  obtain ⟨code, hcode, h⟩ := bind_eq_ok.mp h
  obtain ⟨ranges, hranges, h⟩ := bind_eq_ok.mp h
  cases h
  have length : code.length = b.code.length := by
    rw [length_of_mapM_eq_ok hcode, List.length_zipIdx]
  -- the position that is found for a handle is one of the body
  have inside : ∀ {id p}, (Positions.ofList b.code).find? id = some p →
      (UInt32.ofNat p).toNat < code.length := by
    intro id p hp
    rw [length]
    exact (Nat.mod_le ..).trans_lt (Positions.lt_length_of_find? hp)
  refine ⟨rfl, fun j hj => ?_, fun s hs => ?_, ?_, ?_⟩
  · obtain ⟨⟨id, p⟩, -, made⟩ := exists_of_mem_mapM hcode hj
    dsimp only at made
    split at made
    · rename_i i hi
      exact ⟨id, i, _, hi, made⟩
    · cases made
  · obtain ⟨⟨r, p⟩, hr, made⟩ := exists_of_mem_mapM hranges hs
    exact ⟨r, List.fst_mem_of_mem_zipIdx hr, _, made⟩
  · intro j hj l hl
    obtain ⟨⟨id, p⟩, -, made⟩ := exists_of_mem_mapM hcode hj
    dsimp only at made
    split at made
    · obtain ⟨x, -, found⟩ := exists_of_mem_mapM (Instruction.targets_mapLabelsM made) hl
      split at found
      · cases found
        exact inside ‹_›
      · cases found
    · cases made
  · intro s hs l hl
    obtain ⟨⟨r, p⟩, -, made⟩ := exists_of_mem_mapM hranges hs
    obtain ⟨x, -, found⟩ := ExceptionRange.exists_of_mem_markers_mapLabelsM made hl
    dsimp only at found
    split at found
    · cases found
      exact inside ‹_›
    · cases found

/-- Every method of the file is a method of the module that was written, and the other way round. -/
theorem methods_of_toFile (h : m.toFile = .ok f) :
    (∀ e ∈ f.methods, ∃ k, ∃ d ∈ m.methods, m.fileMethod k d = .ok e) ∧
      ∀ d ∈ m.methods, ∃ k, ∃ e ∈ f.methods, m.fileMethod k d = .ok e := by
  obtain ⟨methods, stored, h⟩ := bind_eq_ok.mp h
  cases h
  constructor
  · intro e he
    obtain ⟨⟨d, i⟩, hd, made⟩ := exists_of_mem_mapM stored (List.mem_toArray.mp he)
    exact ⟨_, d, Array.mem_toList_iff.mp (List.fst_mem_of_mem_zipIdx hd), made⟩
  · intro d hd
    obtain ⟨i, hi⟩ := Array.mem_iff_getElem?.mp hd
    have place : (m.methods.toList.zipIdx)[i]? = some (d, i) := by simp [hi]
    obtain ⟨e, he, made⟩ := exists_getElem?_of_mapM stored place
    exact ⟨_, e, List.mem_toArray.mpr (List.mem_of_getElem? he), made⟩

/-- The types that catch clauses mention exist. -/
def CatchesKnown (m : Module) : Prop :=
  ∀ d ∈ m.methods, ∀ b, d.body = some b → ∀ r ∈ b.ranges, ∀ s, r.caught? = some s → m.Knows s

/-- The types that the signatures of fields and methods mention exist. -/
structure SignaturesKnown (m : Module) : Prop where
  fields : ∀ d ∈ m.fields, m.Knows d.type
  results : ∀ d ∈ m.methods, m.Knows d.signature.result
  params : ∀ d ∈ m.methods, ∀ p ∈ d.signature.params, m.Knows p.type

theorem Upkept.resolves (hm : m.Upkept) {id : InsnId} {i : Instruction InsnId}
    (hi : m.instruction? id = some i) : i.Resolves m.toTables := by
  obtain ⟨s, hs, rfl⟩ := Option.map_eq_some_iff.mp hi
  exact hm.code s (Array.mem_of_getElem? hs)

/-- What a written body mentions was in the tables. -/
theorem Upkept.known (hm : m.Upkept) (catches : m.CatchesKnown) {d : Method LiveBody}
    (hd : d ∈ m.methods) (hb : d.body = some b) (written : m.Written b c) :
    c.Known m.toTables := by
  have furnished := hm.bodies d hd b hb
  refine ⟨fun j hj => ?_, fun s hs type caught => ?_, ?_, ?_⟩
  · obtain ⟨id, i, place, hi, made⟩ := written.code j hj
    exact (hm.resolves hi).mapLabelsM made
  · obtain ⟨r, hr, place, made⟩ := written.ranges s hs
    rw [ExceptionRange.caught?_of_mapLabelsM made] at caught
    exact catches d hd b hb r hr type caught
  · rw [written.locals]
    exact furnished.knows
  · rw [written.locals, List.length_map]
    exact furnished.count

/-- The file of a module in order is in order if all mentioned types exist. -/
theorem Upkept.wellFormed (hm : m.Upkept) (types : m.types.size ≤ Arena.capacity)
    (fields : m.fields.size ≤ Arena.capacity) (catches : m.CatchesKnown)
    (signatures : m.SignaturesKnown) (written : m.toFile = .ok f) : f.WellFormed := by
  obtain ⟨sameTypes, sameFields, sameSize, -⟩ := toFile_eq_ok written
  have size : f.types.size = m.types.size := sameTypes ▸ Tables.size_records
  have knows : ∀ {s}, m.Knows s → f.Knows s := fun h => h.mono size.ge
  refine ⟨?_, ?_, fun i d hd => ?_, fun e he => ?_⟩
  · rw [sameTypes]
    exact hm.orderly.types
  · rw [Tables.typeNames_congr ((Tables.records_of_unit f.toTables).trans sameTypes)]
    exact hm.orderly.names types
  · rw [sameFields] at hd
    obtain ⟨owner, name⟩ := hm.orderly.fields d (Array.mem_of_getElem? hd)
    refine ⟨by rwa [size], knows (signatures.fields d (Array.mem_of_getElem? hd)), name, ?_⟩
    rw [sameFields]
    exact nodup_members_iff.mp (hm.orderly.members fields) i d hd
  · obtain ⟨k, d, hd, made⟩ := (methods_of_toFile written).1 e he
    obtain ⟨owner, name⟩ := hm.orderly.methods d hd
    obtain ⟨head, body⟩ := fileMethod_eq_ok made
    have signature := Method.signature_of_head head
    have bodies : ∀ c, e.body = some c → c.Known f.toTables ∧ c.Closed := by
      intro c hc
      rcases body with ⟨-, none⟩ | ⟨b, c', hb, hc', stored⟩
      · rw [none] at hc
        cases hc
      · obtain rfl : c' = c := Option.some.inj (hc'.symm.trans hc)
        have written := written_of_fileBody stored
        refine ⟨(hm.known catches hd hb written).mono ?_ ?_ ?_, written.closed⟩
        · rw [sameFields]
        · rw [sameSize]
        · rw [size]
    refine ⟨?_, ?_, ?_, ?_, fun c hc => (bodies c hc).1, fun c hc => (bodies c hc).2⟩
    · rw [Method.owner_of_head head, size]
      exact owner
    · rw [signature]
      exact knows (signatures.results d hd)
    · rw [signature]
      exact fun p hp => knows (signatures.params d hd p hp)
    · rw [show e.name = d.name from congrArg Method.name head]
      exact name

/-- A file in order was written from signatures of types that exist. -/
theorem signaturesKnown_of_wellFormed (h : f.WellFormed) (written : m.toFile = .ok f) :
    m.SignaturesKnown := by
  obtain ⟨sameTypes, sameFields, -, -⟩ := toFile_eq_ok written
  have size : f.types.size = m.types.size := sameTypes ▸ Tables.size_records
  have knows : ∀ {s}, f.Knows s → m.Knows s := fun h => h.mono size.le
  have signature : ∀ d ∈ m.methods, ∃ e ∈ f.methods, e.signature = d.signature := by
    intro d hd
    obtain ⟨k, e, he, made⟩ := (methods_of_toFile written).2 d hd
    exact ⟨e, he, Method.signature_of_head (fileMethod_eq_ok made).1⟩
  refine ⟨fun d hd => ?_, fun d hd => ?_, fun d hd => ?_⟩
  · rw [← sameFields] at hd
    obtain ⟨i, hi⟩ := Array.mem_iff_getElem?.mp hd
    exact knows (h.fields i d hi).type
  · obtain ⟨e, he, same⟩ := signature d hd
    rw [← same]
    exact knows (h.methods e he).result
  · obtain ⟨e, he, same⟩ := signature d hd
    rw [← same]
    exact fun p hp => knows ((h.methods e he).params p hp)

end Module

/-- A module that can be written can be opened again exactly if the signatures of its fields and
methods mention only types that exist, provided that its catch clauses do. -/
theorem reopen_after_session {f₀ : ModuleFile} {m₀ m : Module} {actions : List Action}
    {f : ModuleFile} (loaded : f₀.load = .ok m₀) (proper : Session.Proper ⟨m₀, []⟩ actions)
    (reached : (Session.run ⟨m₀, []⟩ actions).current = m)
    (types : m.types.size ≤ Arena.capacity) (fields : m.fields.size ≤ Arena.capacity)
    (catches : m.CatchesKnown) (written : m.toFile = .ok f) :
    (∃ m', f.load = .ok m') ↔ m.SignaturesKnown := by
  obtain ⟨accepted, rfl⟩ := ModuleFile.load_eq_ok.mp loaded
  have start := Placement.upkept_build (ModuleFile.check_eq_ok_iff_wellFormed.mp accepted)
  have upkept : m.Upkept := reached ▸ Session.upkept_run start proper
  rw [ModuleFile.exists_load_iff, ModuleFile.check_eq_ok_iff_wellFormed]
  exact ⟨fun h => Module.signaturesKnown_of_wellFormed h written,
    fun signatures => upkept.wellFormed types fields catches signatures written⟩

namespace Sample

/-- An action that declares a field. -/
def counting : List Action := [.addField ⟨0⟩ "count" ⟨0⟩ (.primitive .int)]

/-- The sample with this field. -/
def counted : Module := (Session.run ⟨file.build, []⟩ counting).current

theorem toFile_counted : counted.toFile = .ok counted.view := by
  have arena : counted.arena = file.build.arena := by decide +kernel
  have methods : counted.methods = file.build.methods := by decide +kernel
  have readable : file.build.Readable := Placement.readable_build checked (by decide)
  refine Module.toFile_eq_view fun d hd b hb => ?_
  rw [arena]
  exact readable d (methods ▸ hd) b hb

end Sample

/-- An instance: the sample gets a field of a built-in type. -/
theorem reopen_after_session_sample : ∃ m', Sample.counted.view.load = .ok m' := by
  have proper : Session.Proper ⟨Sample.file.build, []⟩ Sample.counting := by
    refine ⟨?_, trivial⟩
    rintro _ ⟨⟩
    decide
  have catches : Sample.counted.CatchesKnown := by
    intro d hd b hb r hr s caught
    have only : ∀ d ∈ Sample.counted.methods, d.body = some Sample.live := by decide +kernel
    obtain rfl := Option.some.inj ((only d hd).symm.trans hb)
    obtain rfl := List.mem_singleton.mp hr
    cases caught
    nofun
  have builtIn {s : TypeSig} (h : s.mentioned? = none) : Sample.counted.Knows s := by
    rintro id hid
    cases h.symm.trans hid
  have fields : ∀ d ∈ Sample.counted.fields, d.type.mentioned? = none := by decide +kernel
  have methods : ∀ d ∈ Sample.counted.methods, d.signature.result.mentioned? = none ∧
      d.signature.params = [] := by decide +kernel
  refine (reopen_after_session (ModuleFile.load_eq_ok.mpr ⟨Sample.checked, rfl⟩) proper rfl
    (by decide +kernel) (by decide +kernel) catches Sample.toFile_counted).mpr ⟨?_, ?_, ?_⟩
  · exact fun d hd => builtIn (fields d hd)
  · exact fun d hd => builtIn (methods d hd).1
  · intro d hd p hp
    rw [(methods d hd).2] at hp
    cases hp

/-! ## Modules that cannot be opened again -/

/-- The session reaches a module that verifies and that can be written, and no module is loaded from
what was written. -/
def Session.Strays (f₀ : ModuleFile) (actions : List Action) : Prop :=
  ∃ m₀ m f, f₀.load = .ok m₀ ∧ Proper ⟨m₀, []⟩ actions ∧ (run ⟨m₀, []⟩ actions).current = m ∧
    m.verify = .ok () ∧ m.toFile = .ok f ∧ ∀ m', f.load ≠ .ok m'

theorem Session.Strays.of_refused {f₀ f : ModuleFile} {m₀ : Module} {actions : List Action}
    {fault : Fault} (loaded : f₀.load = .ok m₀) (proper : Proper ⟨m₀, []⟩ actions)
    (verified : (run ⟨m₀, []⟩ actions).current.verify = .ok ())
    (written : (run ⟨m₀, []⟩ actions).current.toFile = .ok f) (refused : f.load = .error fault) :
    Strays f₀ actions := by
  refine ⟨m₀, _, f, loaded, proper, rfl, verified, written, fun m' ok => ?_⟩
  cases refused.symm.trans ok

namespace Sample

/-- A type that is not there. -/
def stray : TypeSig := .classType ⟨5⟩

/-- A file with one type and nothing else. -/
def bare : ModuleFile := { file with methods := #[] }

/-- A file with a method that does nothing. -/
def idle : ModuleFile :=
  { file with methods := #[⟨⟨0⟩, "next", ⟨MethodFlags.visible ||| MethodFlags.static⟩,
      ⟨.primitive .void, [], []⟩, some ⟨1, false, [], [.ret], []⟩⟩] }

def strayField : List Action := [.addField ⟨0⟩ "next" ⟨0⟩ stray]

/-- The module with the field. -/
def fielded : Module := (Session.run ⟨bare.build, []⟩ strayField).current

def strayMethod : List Action :=
  [.addMethod ⟨0⟩ "next" ⟨MethodFlags.visible ||| MethodFlags.abstract⟩ ⟨stray, [], []⟩]

/-- The module with the method. -/
def declaring : Module := (Session.run ⟨bare.build, []⟩ strayMethod).current

/-- A protected region, left at once, with a handler for the type that is not there. -/
def guarded : List (Instruction Nat) := [.leave 2, .throw, .nop]

def strayCatch : List Action := [.make guarded [⟨.catching stray, 0, 0, 1, 1⟩], .splice ⟨0⟩ 0 0]

/-- The handler as a fragment. -/
def guard : Fragment where
  code := guarded
  ranges := [⟨.catching stray, 0, 0, 1, 1⟩]
  targets_lt := by decide
  markers_lt := by decide

/-- The body with the handler in front. -/
def trapped : LiveBody where
  maxStack := 1
  initLocals := false
  locals := []
  code := [.ofIndex 1, .ofIndex 2, .ofIndex 3, .ofIndex 0]
  ranges := [⟨.catching stray, .ofIndex 1, .ofIndex 1, .ofIndex 2, .ofIndex 2⟩]

/-- The module with this body. -/
def trap : Module :=
  (idle.build.touch ⟨0⟩).withBody ⟨0⟩ trapped
    (idle.build.arena.append ⟨0⟩ (guard.instructions 1))

theorem body?_trap : trap.body? ⟨0⟩ = some trapped := rfl

theorem linked_trapped : trapped.Linked trap.arena where
  nodup := by decide
  targets id hid i hi l hl := by
    have inside : ∀ id ∈ trapped.code, (trap.arena.get? id).all fun i =>
      i.targets.all (· ∈ trapped.code) := by decide
    have := inside id hid
    simp only [hi, Option.all_some, List.all_eq_true, decide_eq_true_eq] at this
    exact this l hl
  markers := by decide

theorem simulate_trap : trap.simulate ⟨0⟩ = .ok 1 := by
  rw [Module.simulate_eq body?_trap linked_trapped (by decide)]
  refine Module.visit_instruction linked_trapped (p := 1) (i := .throw) (by decide) (by decide) rfl
    rfl (by decide) ?_
  refine Module.visit_instruction linked_trapped (p := 0) (i := .leave (.ofIndex 3)) (by decide)
    (by decide) rfl rfl (by decide) ?_
  refine Module.visit_instruction linked_trapped (p := 2) (i := .nop) (by decide) (by decide) rfl
    rfl (by decide) ?_
  refine Module.visit_instruction linked_trapped (p := 3) (i := .ret) (by decide) (by decide) rfl
    rfl (by decide) ?_
  exact Simulation.visit_nil.trans rfl

theorem rebuilt_trapped :
    idle.build.rebuilt ⟨0⟩ trapped (idle.build.arena.append ⟨0⟩ (guard.instructions 1)) = trap := by
  have deep : trap.raisedDepth ⟨0⟩ trapped = trapped.maxStack := by
    rw [Module.raisedDepth, simulate_trap]
    rfl
  have body : idle.build.body? ⟨0⟩ = some ⟨1, false, [], [.ofIndex 0], []⟩ := rfl
  rw [Module.rebuilt_eq body]
  exact congrArg (fun depth => (idle.build.touch ⟨0⟩).withBody ⟨0⟩
    { trapped with maxStack := depth } (idle.build.arena.append ⟨0⟩ (guard.instructions 1))) deep

theorem apply_splice_guard :
    ∃ ids, (Edit.splice ⟨0⟩ 0 guard).apply idle.build = (.ok ids, trap) := by
  have operands : ∀ i ∈ guard.code, i.Resolves idle.build.toTables ∧
      i.Fits (idle.build.argumentCount ⟨0⟩) 0 := by
    intro i hi
    have plain : ∀ i ∈ guard.code,
        i.field? = none ∧ i.method? = none ∧ i.type? = none ∧ i.loc? = none ∧ i.arg? = none := by
      decide
    have := plain i hi
    exact ⟨.of_none this.1 this.2.1 this.2.2.1, .of_none this.2.2.2.1 this.2.2.2.2⟩
  exact ⟨_, Edit.apply_splice_ok.mpr ⟨⟨1, false, [], [.ofIndex 0], []⟩, rfl, Nat.zero_le _,
    operands, rfl, rebuilt_trapped.symm⟩⟩

theorem run_strayCatch : (Session.run ⟨idle.build, []⟩ strayCatch).current = trap := by
  have made : Fragment.ofParts guarded [⟨.catching stray, 0, 0, 1, 1⟩] = .ok guard := by decide
  have first : (Session.mk idle.build []).step (.make guarded [⟨.catching stray, 0, 0, 1, 1⟩]) =
      ⟨idle.build, [guard]⟩ := by
    rw [Session.step, Action.fragment?, made]
    rfl
  obtain ⟨ids, spliced⟩ := apply_splice_guard
  rw [strayCatch, Session.run, List.foldl_cons, first]
  show ((discard (Edit.splice ⟨0⟩ 0 guard) : Edit Unit).apply idle.build).2 = trap
  rw [Edit.apply_discard, spliced]

theorem verified_trap : trap.Verified ⟨0⟩ trapped 1 where
  filled := nofun
  owner? := by decide
  sound := by
    refine .of_plain linked_trapped (by decide) fun r hr => ?_
    obtain rfl := List.mem_singleton.mp hr
    constructor <;> decide
  simulate := simulate_trap
  declared := by decide

theorem verify_trap : trap.verify = .ok () := by
  have ids : (trap.methodIds.filter fun k => (trap.body? k).isSome) = [⟨0⟩] := by decide
  rw [Module.verify, ids]
  exact Module.verifyBodies_eq_ok.mpr
    (List.forall_mem_singleton.mpr ⟨_, _, body?_trap, verified_trap⟩)

theorem toFile_trap : trap.toFile = .ok trap.view := by
  refine Module.toFile_eq_view fun d hd b hb => ?_
  have only : ∀ d ∈ trap.methods, d.body = some trapped := by decide
  obtain rfl := Option.some.inj ((only d hd).symm.trans hb)
  exact verified_trap.readable

end Sample

/-- Signatures and catch clauses may stray: a field and a method are declared with a type that does
not exist, and a handler that catches it is put into a body. -/
theorem sessions_stray :
    Session.Strays Sample.bare Sample.strayField ∧ Session.Strays Sample.bare Sample.strayMethod ∧
      Session.Strays Sample.idle Sample.strayCatch := by
  have bare : Sample.bare.load = .ok Sample.bare.build := by decide +kernel
  have idle : Sample.idle.load = .ok Sample.idle.build := by decide +kernel
  refine ⟨?_, ?_, ?_⟩
  · have proper : Session.Proper ⟨Sample.bare.build, []⟩ Sample.strayField := by
      refine ⟨?_, trivial⟩
      rintro _ ⟨⟩
      decide
    have written : Sample.fielded.toFile = .ok Sample.fielded.view := by decide +kernel
    have refused : Sample.fielded.view.load =
        .error (.malformed (.missingEntry (.field 0) (.type ⟨5⟩))) := by decide +kernel
    exact .of_refused bare proper (by decide +kernel) written refused
  · have proper : Session.Proper ⟨Sample.bare.build, []⟩ Sample.strayMethod := by
      refine ⟨?_, trivial⟩
      rintro _ ⟨⟩
      decide
    have written : Sample.declaring.toFile = .ok Sample.declaring.view := by decide +kernel
    have refused : Sample.declaring.view.load =
        .error (.malformed (.missingEntry (.method 0) (.type ⟨5⟩))) := by decide +kernel
    exact .of_refused bare proper (by decide +kernel) written refused
  · have refused : Sample.trap.view.load =
        .error (.malformed (.missingEntry (.method 0) (.type ⟨5⟩))) := by decide +kernel
    refine .of_refused idle ⟨nofun, nofun, trivial⟩ ?_ ?_ refused
    · rw [Sample.run_strayCatch]
      exact Sample.verify_trap
    · rw [Sample.run_strayCatch]
      exact Sample.toFile_trap

end Graft
