import Graft.Proofs.Blindness
import Graft.Proofs.Keeping
import Graft.Proofs.Opening
import Graft.Proofs.Upkeep

/-!
# Compaction shows in handles only

Compaction writes a module and loads it again. Whether it succeeds is up to the module: edits from
outside may have left types in signatures that do not exist. If it does, every body refers to its
own handles, because it could be written and no handle is ever in two places. So the module that is
loaded is seen as the same, and handles are all that is new: they count the instructions.
-/

namespace Graft

/-! ## Handles stay in one place -/

namespace Module

variable {m m' : Module} {k : MethodId} {b : LiveBody} {d : Method LiveBody}

/-- A new method is still to be filled in. -/
theorem Claimed.addMethod (h : m.Claimed) (blank : d.Blank) : (m.addMethod d).Claimed := by
  intro k b hb
  rw [body?_addMethod] at hb
  split at hb
  · exact .of_code_eq_nil (blank b hb).1
  · exact h k b hb

end Module

namespace Edit

/-- What stays within one method keeps handles where they are owned. -/
theorem Contained.keepsClaims {α : Type} {k : MethodId} {e : Edit α} (he : e.Contained k) :
    e.Keeps Module.Claimed :=
  meets_bounded.mpr ⟨he.grows, fun m room hm => (he.keeps m hm room).1⟩

theorem declarable_claimed : Declarable Module.Claimed where
  addType _ d hm k b hb := hm k b ((Module.body?_enterType d k).symm.trans hb)
  addField _ _ hm := hm
  addMethod _ _ blank hm := hm.addMethod blank
  copyLocals _ _ _ hm := (frame_localsCopied hm).1

end Edit

namespace Session

/-- What one action keeps, whether it succeeds or not. -/
theorem keepsClaims_edit (kept : List Fragment) (a : Action) :
    (a.edit kept).Keeps Module.Claimed :=
  Action.keeps_edit Edit.declarable_claimed fun _ target =>
    Edit.Contained.keepsClaims (Action.contained_edit target)

/-- What a sequence of actions keeps. -/
theorem claimed_run {s : Session} {actions : List Action} (hm : s.current.Claimed)
    (n : (s.run actions).current.Numbered) : (s.run actions).current.Claimed :=
  keeps_run keepsClaims_edit hm n.slots

end Session

/-! ## What could be written can be read -/

namespace Module

variable {m m' : Module} {k : MethodId} {b : LiveBody} {c : FileBody} {i : Nat}
  {d : Method LiveBody} {f : ModuleFile}

/-- What has a position in a body is in the body. -/
theorem mem_code_of_place {fault : Fault} {l : InsnId} {x : UInt32}
    (found : (match (Positions.ofList b.code).find? l with
      | some p => Except.ok (UInt32.ofNat p)
      | none => .error fault) = .ok x) : l ∈ b.code := by
  split at found
  · rename_i p hp
    exact List.mem_of_getElem? (Positions.getElem?_of_find? hp)
  · cases found

/-- A body could be written, so it refers to its own handles only. -/
theorem readable_of_fileBody (h : b.Claimed k m.arena) (stored : m.fileBody k b = .ok c) :
    b.Readable m.arena := by
  obtain ⟨code, hcode, stored⟩ := bind_eq_ok.mp stored
  obtain ⟨ranges, hranges, -⟩ := bind_eq_ok.mp stored
  refine ⟨⟨h.nodup, fun id hid i hi l hl => ?_, fun r hr l hl => ?_⟩, fun id hid =>
    Arena.exists_get?_of_owner? (h.owner? id hid)⟩
  · obtain ⟨p, hp⟩ := List.mem_iff_getElem?.mp hid
    have place : b.code.zipIdx[p]? = some (id, p) := by simp [hp]
    obtain ⟨j, -, made⟩ := exists_getElem?_of_mapM hcode place
    have hi : m.instruction? id = some i := hi
    simp only [hi] at made
    obtain ⟨q, hq⟩ := List.mem_iff_getElem?.mp hl
    obtain ⟨x, -, hx⟩ := exists_getElem?_of_mapM (Instruction.targets_mapLabelsM made) hq
    exact mem_code_of_place hx
  · obtain ⟨p, hp⟩ := List.mem_iff_getElem?.mp hr
    have place : b.ranges.zipIdx[p]? = some (r, p) := by simp [hp]
    obtain ⟨s, -, made⟩ := exists_getElem?_of_mapM hranges place
    obtain ⟨x, hx⟩ := ExceptionRange.exists_of_mapLabelsM made l hl
    exact mem_code_of_place hx

/-- So all bodies could be read again if the methods have numbers. -/
theorem readable_of_toFile (hm : m.Claimed) (room : m.methods.size ≤ Arena.capacity)
    (stored : m.toFile = .ok f) : m.Readable := by
  obtain ⟨-, -, -, methods⟩ := toFile_eq_ok stored
  intro d hd b hb
  obtain ⟨i, hi⟩ := Array.mem_iff_getElem?.mp hd
  have small := (Array.getElem?_eq_some_iff.mp hi).1.trans_le room
  have hd : m.method? (.ofIndex i) = some d := by
    rw [Tables.method?, MethodId.index_ofIndex small, hi]
  obtain ⟨d', -, file⟩ := methods _ d hd
  obtain ⟨-, ⟨none, -⟩ | ⟨b', c, hb', -, made⟩⟩ := fileMethod_eq_ok file
  · rw [hb] at none
    cases none
  · obtain rfl : b = b' := Option.some.inj (hb.symm.trans hb')
    exact readable_of_fileBody (hm _ b ((body?_ofIndex small hi).trans hb)) made

theorem Claimed.held (hm : m.Claimed) (room : m.methods.size ≤ Arena.capacity) : m.Held := by
  intro i d b hd hb
  have small := (Array.getElem?_eq_some_iff.mp hd).1.trans_le room
  have claimed := hm _ b ((body?_ofIndex small hd).trans hb)
  exact ⟨claimed.nodup, fun id hid => ⟨small, claimed.owner? id hid⟩⟩

/-! ## Handles are numbers -/

/-- The handles of a placed body are consecutive. -/
theorem code_placeAt {d : Method FileBody} {n : Nat} :
    (d.placeAt n).body.elim [] Body.code =
      (List.range d.instructionCount).map fun p => InsnId.ofIndex (n + p) := by
  rw [Method.placeAt, Method.instructionCount]
  cases d.body <;> rfl

/-- Loading gives out handles in method order and body order. -/
theorem handles_build : f.build.handles = (List.range f.build.arena.size).map .ofIndex := by
  rw [handles, Placement.methods_build]
  show (ModuleFile.placeMethods f.methods).1.toList.flatMap _ =
    (List.range (ModuleFile.placeMethods f.methods).2.size).map _
  unfold ModuleFile.placeMethods
  induction f.methods.toList using List.reverseRecOn with
  | nil => rfl
  | append_singleton ds d ih =>
    rw [List.zipIdx_append, List.foldl_append]
    generalize ds.zipIdx.foldl _ _ = placed at ih ⊢
    obtain ⟨methods, a⟩ := placed
    simp only [List.zipIdx_singleton, List.foldl_cons, List.foldl_nil, Array.toList_push,
      List.flatMap_append, List.flatMap_singleton, ih, Placement.fst_place, code_placeAt,
      Placement.size_place, List.range_add, List.map_append, List.map_map]
    rfl

/-! ## What compaction gives -/

/-- The second module is storable and seen as the first, which could be written. Its handles are
numbers in order, and it is what its file is built into. -/
structure Compacted (m d : Module) : Prop where
  upkept : m.Upkept
  claimed : m.Claimed
  readable : m.Readable
  storable : d.Storable
  view : d.view = m.view
  touched : d.touched = m.touched
  handles : d.handles = (List.range d.arena.size).map .ofIndex
  build : { d.view.build with touched := d.touched } = d

theorem Upkept.compacted (upkept : m.Upkept) (hm : m.Claimed) (n : m.Numbered)
    (h : m.compacted = .ok m') : m.Compacted m' := by
  obtain ⟨f, stored, check, rfl⟩ := compacted_eq_ok h
  have readable := readable_of_toFile hm n.methods stored
  obtain rfl : m.view = f := Except.ok.inj ((toFile_eq_view readable).symm.trans stored)
  have room : m.view.build.arena.size ≤ Arena.capacity :=
    size_build_view.trans_le ((hm.held n.methods).instructionCount_le.trans n.slots)
  have addressed : Placement.Addressed m.view :=
    Placement.addressed_of_size (Array.size_map.trans_le n.methods)
  have view : m.view.build.view = m.view := Placement.view_build check room
  refine ⟨upkept, hm, readable, (Placement.storable_build check addressed room).withTouched _, view,
    rfl, handles_build, ?_⟩
  show { m.view.build.view.build with touched := m.touched } = _
  rw [view]

namespace Compacted

variable (h : m.Compacted m')
include h

/-- The file says which entries there are and what they belong to, so it says what types list. -/
theorem declarations : m'.declarations = m.declarations :=
  declarations_of_view h.view h.upkept.coherent h.storable.coherent

/-- The file says of locals what their types are and in which order they come, so it says what their
numbers are. -/
theorem body_cases : (m.body? k = none ∧ m'.body? k = none) ∨ ∃ b b', Alike k m m' b b' := by
  have both := isSome_body?_of_view h.view (k := k)
  cases hb : m.body? k with
  | none =>
    rw [hb, Option.isSome_none, Option.isSome_eq_false_iff, Option.isNone_iff_eq_none] at both
    exact .inl ⟨rfl, both⟩
  | some b =>
    rw [hb, Option.isSome_some] at both
    obtain ⟨b', hb'⟩ := Option.isSome_iff_exists.mp both
    obtain ⟨d, hd, body⟩ := exists_method? hb
    exact .inr ⟨b, b', alike_of_view h.view h.declarations hb hb'
      (h.readable d (Array.mem_of_getElem? hd) b body) (h.storable.linked.readable hb')
      (h.upkept.body hb).indexed (h.storable.indexed_body hb')⟩

theorem locals : (m'.body? k).map Body.locals = (m.body? k).map Body.locals := by
  rcases h.body_cases (k := k) with ⟨none, none'⟩ | ⟨b, b', alike⟩
  · rw [none, none']
  · rw [alike.body, alike.body', Option.map_some, Option.map_some, alike.locals]

theorem describe : m'.describe k = m.describe k := describe_eq h.declarations h.body_cases

theorem verifyBody {r : Nat} : m'.verifyBody k = .ok r ↔ m.verifyBody k = .ok r := by
  rw [verifyBody_eq_ok, verifyBody_eq_ok]
  rcases h.body_cases (k := k) with ⟨none, none'⟩ | ⟨b, b', alike⟩
  · simp [none, none']
  · have same := alike.verified (r := r) (h.claimed k b alike.body).owner?
      fun _ => h.storable.linked.owner?_eq alike.body'
    simp [alike.body, alike.body', same]

theorem compacted : m'.compacted = .ok m' := by
  rw [h.storable.compacted_eq, h.build]

end Compacted

end Module

/-- Compaction either replaces the module or leaves it alone. -/
theorem Edit.refuses_compact : compact.Refuses none := by
  refine fun m => .check_bind (fun _ _ => .inl rfl) fun d _ => ?_
  exact Meets.update (fun _ => trivial) m

theorem Edit.apply_compact_ok {m d : Module} :
    compact.apply m = (.ok (), d) ↔ m.compacted = .ok d := by
  rw [compact, apply_check_bind_ok]
  simp

/-- Whatever was done to a loaded module, compaction leaves it alone if it fails. If it succeeds,
the declarations with the lists of what types contain, the locals with their numbers, and what
counts as touched stay the same, every listing reads the same, and the same methods verify with the
same depths. There are as many slots as instructions, handles are given out in order, each to the
method whose body holds it, and compacting once more changes nothing. -/
theorem compaction_invisible {f : ModuleFile} {m : Module} {actions : List Action}
    (loaded : f.load = .ok m) (proper : Session.Proper ⟨m, []⟩ actions)
    (numbered : (Session.run ⟨m, []⟩ actions).current.Numbered) :
    let reached := (Session.run ⟨m, []⟩ actions).current
    (∀ fault d, Edit.compact.apply reached = (.error fault, d) → d = reached) ∧
    ∀ d, Edit.compact.apply reached = (.ok (), d) →
      d.declarations = reached.declarations ∧
      (∀ k, (d.body? k).map Body.locals = (reached.body? k).map Body.locals) ∧
      d.touched = reached.touched ∧
      (∀ k, d.describe k = reached.describe k) ∧
      (∀ k r, d.verifyBody k = .ok r ↔ reached.verifyBody k = .ok r) ∧
      d.arena.size = reached.instructionCount ∧
      d.handles = (List.range d.arena.size).map .ofIndex ∧
      (∀ k b, d.body? k = some b → ∀ id ∈ b.code, d.arena.owner? id = some k) ∧
      Edit.compact.apply d = (.ok (), d) := by
  obtain ⟨check, rfl⟩ := ModuleFile.load_eq_ok.mp loaded
  have le := Session.grows_run ⟨f.build, []⟩ actions
  have start : f.build.Claimed := (Placement.linked_build check
    ⟨le.methods.trans numbered.methods, le.slots.trans numbered.slots⟩).claimed
  have claimed := Session.claimed_run (s := ⟨f.build, []⟩) start numbered
  have upkept := Session.upkept_run (s := ⟨f.build, []⟩)
    (Placement.upkept_build (ModuleFile.check_eq_ok_iff_wellFormed.mp check)) proper
  intro reached
  refine ⟨fun fault d h => Edit.refuses_compact.eq_of_error h, fun d h => ?_⟩
  · have compacted := Edit.apply_compact_ok.mp h
    have new := upkept.compacted claimed numbered compacted
    exact ⟨new.declarations, fun k => new.locals, new.touched, fun k => new.describe,
      fun k r => new.verifyBody, Module.size_compacted compacted, new.handles,
      fun k b hb id hid => new.storable.linked.owner?_eq hb hid,
      Edit.apply_compact_ok.mpr new.compacted⟩

namespace Sample

/-- An action that leaves a slot without a body that holds it: the last instruction is removed. -/
def shortening : List Action := [.removeRange ⟨0⟩ 5 5]

/-- The sample without its last instruction. -/
def shortened : Module :=
  file.build.rebuilt ⟨0⟩ { live.without 5 5 with ranges := live.ranges }
    (file.build.arena.releaseAll (live.span 5 5))

theorem apply_shortening :
    (BodyEdit.removeRange 5 5 |>.edit ⟨0⟩).apply file.build = (.ok (), shortened) :=
  Edit.apply_discard_ok.mpr ⟨_, Edit.apply_removeRange_ok.mpr ⟨live, live.ranges,
    body?_build_zero, by decide, by decide, by decide, rfl, rfl⟩⟩

theorem run_shortening : (Session.run ⟨file.build, []⟩ shortening).current = shortened :=
  congrArg Prod.snd apply_shortening

theorem storable_shortened : shortened.Storable := by
  have same := Edit.agree_bodyEdit (loaded.storable room).twin_self
    (e := .removeRange 5 5) (k := ⟨0⟩) BodyEdit.blind_removeRange (by rintro f ⟨⟩)
  have slots : shortened.arena.size ≤ Arena.capacity := by
    rw [shortened, Module.arena_rebuilt]
    decide
  exact ((same.of_eq apply_shortening apply_shortening slots).twin () rfl).storable

end Sample

/-- An instance: of the six slots of the shortened sample one is given up, and its listing stays
the same. -/
theorem compaction_invisible_sample :
    ∃ d, Edit.compact.apply Sample.shortened = (.ok (), d) ∧
      d.handles = (List.range 5).map .ofIndex ∧
      d.describe ⟨0⟩ = Sample.shortened.describe ⟨0⟩ := by
  have storable := Sample.storable_shortened
  have numbered : Sample.shortened.Numbered := by
    refine ⟨?_, storable.room⟩
    rw [Sample.shortened, Module.rebuilt_eq Sample.body?_build_zero, Module.size_methods_withBody]
    decide +kernel
  have reached := Sample.run_shortening
  have proper : Session.Proper ⟨Sample.file.build, []⟩ Sample.shortening := by
    refine ⟨?_, trivial⟩
    rintro _ ⟨⟩
  rw [← reached] at numbered
  obtain ⟨-, done⟩ :=
    compaction_invisible (ModuleFile.load_eq_ok.mpr ⟨Sample.checked, rfl⟩) proper numbered
  rw [reached] at done
  have ok := Edit.apply_compact_ok.mpr storable.compacted_eq
  obtain ⟨-, -, -, listing, -, size, handles, -⟩ := done _ ok
  have count : Sample.shortened.instructionCount = 5 := by
    rw [Sample.shortened, Module.rebuilt_eq Sample.body?_build_zero]
    rfl
  rw [size, count] at handles
  exact ⟨_, ok, handles, listing ⟨0⟩⟩

end Graft
