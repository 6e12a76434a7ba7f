import Graft.Proofs.Bystanders
import Graft.Proofs.Copying
import Graft.Proofs.Depths

/-!
# Copies of bodies that verify

A body that verifies can be copied to any method of the same shape that has a body, be it the same
method, whose own instructions are released before the copy is put in. The copy is seen as the body
was. A simulation is told from the view, so the copy verifies with the same depth, and what the body
declares is enough for it, so the copy declares no more.
-/

namespace Graft

namespace Module

variable {m m' : Module} {source target : MethodId} {b b' c : LiveBody} {r : Nat}
  {ids : List InsnId}

/-- The body of `target` in the second module is a copy of that of `source` in the first. It has new
handles, verifies with the given depth, and is seen as the copied body, with the same declared stack
depth. Nobody owns the handles of the body that it replaces, and the source, if it is another
method, is what it was. -/
structure Copied (m m' : Module) (source target : MethodId) (r : Nat) (ids : List InsnId) :
    Prop where
  accepted : m'.verifyBody target = .ok r
  copy : ∃ b b', m.body? source = some b ∧ m'.body? target = some b' ∧ b'.code = ids ∧
    b'.locals = b.locals ∧ b'.view m'.arena = b.view m.arena
  nodup : ids.Nodup
  unused : ∀ id ∈ ids, m.arena.slot? id = none
  released : ∀ c, m.body? target = some c → ∀ id ∈ c.code, m'.arena.owner? id = none
  source : source ≠ target → m.Intact source m'

/-- What verifies uses only what there is. -/
theorem Verified.usable (h : m.Verified source b r) : m.Usable source b := fun id hid i hi =>
  ⟨h.sound.resolves id hid i hi, h.sound.fits id hid i hi⟩

/-- Methods of the same shape both give a value, or neither does. -/
theorem givesValue_of_sameShape (h : m.checkSameShape source target = .ok ()) :
    m.givesValue target = m.givesValue source := by
  obtain ⟨d, e, hd, he, shape, -⟩ := checkSameShape_eq_ok.mp h
  simp only [MethodSig.sameShape, Bool.and_eq_true, decide_eq_true_eq] at shape
  rw [Tables.givesValue, Tables.givesValue, hd, he, Option.any_some, Option.any_some, shape.1.1]

end Module

namespace Edit

variable {m m' : Module} {source target : MethodId} {b b' c : LiveBody} {r : Nat}
  {ids : List InsnId}

section Copy

variable (linked : m.Linked) (h : m.Copyable source target b c) (hr : b.Readable m.arena)
  (ok : (copyBody source target).apply m = (.ok ids, m'))
include linked h hr ok

/-- The copy has the new handles and no others. -/
theorem code_of_copyBody (room : m'.arena.size ≤ Arena.capacity) (hb' : m'.body? target = some b') :
    b'.code = ids := by
  rw [apply_copyBody_of_copyable h hr] at ok
  obtain ⟨b₁, hb₁, code, -⟩ := Module.exists_spliced (linked.cleared h.target)
    (Module.body?_cleared h.target) ok room
  obtain rfl : b' = b₁ := Option.some.inj (hb'.symm.trans hb₁)
  simpa [LiveBody.emptied] using code

theorem nodup_of_copyBody (room : m'.arena.size ≤ Arena.capacity) : ids.Nodup := by
  rw [apply_copyBody_of_copyable h hr] at ok
  exact (inserted_of_splice (linked.cleared h.target) room ok).nodup

theorem unused_of_copyBody (room : m'.arena.size ≤ Arena.capacity) :
    ∀ id ∈ ids, m.arena.slot? id = none := by
  rw [apply_copyBody_of_copyable h hr] at ok
  intro id hid
  have unused := (inserted_of_splice (linked.cleared h.target) room ok).unused id hid
  rwa [Module.cleared, Module.arena_withBody, Arena.slot?_releaseAll_eq_none] at unused

/-- What the target had before belongs to nobody. -/
theorem released_of_copyBody : ∀ id ∈ c.code, m'.arena.owner? id = none := by
  rw [apply_copyBody_of_copyable h hr] at ok
  obtain ⟨_, -, -, -, -, rfl⟩ := apply_splice_ok.mp ok
  intro id hid
  have known : id.index < (m.cleared target b c).arena.size := by
    rw [Module.cleared, Module.arena_withBody, Arena.size_releaseAll]
    exact (linked.tied h.target).index_lt_size hid
  rw [Module.arena_rebuilt, Arena.owner?_append_of_lt known, Module.cleared, Module.arena_withBody,
    Arena.owner?_releaseAll, if_pos hid]

/-- If the copy simulates with what the source declares, it declares the same. -/
theorem maxStack_of_copyBody (room : m'.arena.size ≤ Arena.capacity)
    (hb' : m'.body? target = some b') (simulate : m'.simulate target = .ok r)
    (declared : r ≤ b.maxStack.toNat) : b'.maxStack = b.maxStack := by
  obtain ⟨_, _, b₁, -, hb₁, tied, -⟩ := exists_copy linked ok room
  obtain rfl : b' = b₁ := Option.some.inj (hb'.symm.trans hb₁)
  rw [apply_copyBody_of_copyable h hr] at ok
  obtain ⟨e, he, -, -, -, rfl⟩ := apply_splice_ok.mp ok
  obtain rfl : b.emptied = e :=
    Option.some.inj ((Module.body?_cleared h.target).symm.trans he)
  have deepest := Module.maxStack_rebuilt he hb' tied.readable simulate
  exact UInt16.toNat_inj.mp (deepest.trans (Nat.max_eq_left declared))

end Copy

end Edit

namespace Module

/-- What was copied from a body that verifies. -/
theorem Verified.copied (h : m.Verified source b r) (linked : m.Linked)
    (copyable : m.Copyable source target b c)
    (room : m.arena.size + b.code.length ≤ Arena.capacity) :
    ∃ ids m', (Edit.copyBody source target).apply m = (.ok ids, m') ∧
      m.Copied m' source target r ids := by
  have hr := h.readable
  obtain ⟨ids, m', ok⟩ := Edit.exists_copyBody_ok copyable hr h.usable
  have room : m'.arena.size ≤ Arena.capacity := by
    rwa [Edit.size_arena_of_copyBody copyable hr ok]
  obtain ⟨b₁, _, b', copyable₁, hb', tied, -, locals, view⟩ := Edit.exists_copy linked ok room
  obtain rfl : b = b₁ := Option.some.inj (copyable.source.symm.trans copyable₁.source)
  have frame : m.Frame target m' :=
    (Edit.contained_copyBody.keeps_of_eq linked.claimed ok room).2
  have arguments : m'.argumentCount target = m.argumentCount source :=
    (Tables.argumentCount_of_declarations frame.declarations).trans
      (argumentCount_of_sameShape copyable.shape)
  have value : m'.givesValue target = m.givesValue source :=
    (Tables.givesValue_of_outline (Tables.outline_of_declarations frame.declarations)).trans
      (givesValue_of_sameShape copyable.shape)
  have tables : m.toTables.Extends m'.toTables := .of_declarations frame.declarations
  have code : (b'.view m'.arena).code = (b.view m.arena).code := by rw [view]
  have ranges : (b'.view m'.arena).ranges = (b.view m.arena).ranges := by rw [view]
  have simulate : m'.simulate target = .ok r :=
    simulate_eq_ok_of_view copyable.source hr hb' tied.readable code ranges
      (fun i hi => tables.stackEffect_eq_of_givesValue value
        (((verified_iff_view copyable.source hr h.owner?).mp h).1 i hi)) h.simulate
  have depth : b'.maxStack = b.maxStack :=
    Edit.maxStack_of_copyBody linked copyable hr ok room hb' simulate h.declared
  have verified : m'.Verified target b' r :=
    h.of_view copyable.source hb' tied.readable (fun id => (tied.owner_iff id).mpr) tables
      arguments value view (depth ▸ h.declared)
  refine ⟨ids, m', ok, verifyBody_eq_ok.mpr ⟨b', hb', verified⟩, ⟨b, b', copyable.source, hb',
    Edit.code_of_copyBody linked copyable hr ok room hb', locals, ?_⟩,
    Edit.nodup_of_copyBody linked copyable hr ok room,
    Edit.unused_of_copyBody linked copyable hr ok room, fun c₁ hc₁ => ?_,
    frame.intact linked.claimed⟩
  · rw [view, depth]
    rfl
  · obtain rfl : c = c₁ := Option.some.inj (copyable.target.symm.trans hc₁)
    exact Edit.released_of_copyBody linked copyable hr ok

end Module

/-- In a linked module, a body that verifies can be copied to a method that has a body, takes and
gives the same types, and is static if the source is. The copy is seen as the body was, and verifies
with the same depth. This holds of a copy of a body to itself, too. -/
theorem copy_of_verified {m : Module} {source target : MethodId} {d e : Method LiveBody} {r : Nat}
    {b c : LiveBody} (linked : m.Linked) (accepted : m.verifyBody source = .ok r)
    (hd : m.method? source = some d) (he : m.method? target = some e)
    (shape : d.signature.sameShape e.signature = true) (static : d.isStatic = e.isStatic)
    (hb : m.body? source = some b) (hc : m.body? target = some c)
    (room : m.arena.size + b.code.length ≤ Arena.capacity) :
    ∃ ids m', (Edit.copyBody source target).apply m = (.ok ids, m') ∧
      m.Copied m' source target r ids := by
  obtain ⟨b₁, hb₁, verified⟩ := Module.verifyBody_eq_ok.mp accepted
  obtain rfl : b = b₁ := Option.some.inj (hb.symm.trans hb₁)
  have same := Module.checkSameShape_eq_ok.mpr ⟨d, e, hd, he, shape, static⟩
  exact verified.copied linked ⟨same, hb, hc, verified.filled⟩ room

/-- An instance: the body of the sample is copied to itself. -/
theorem copy_of_verified_sample : ∃ ids m',
    (Edit.copyBody ⟨0⟩ ⟨0⟩).apply Sample.file.build = (.ok ids, m') ∧
      Sample.file.build.Copied m' ⟨0⟩ ⟨0⟩ 1 ids := by
  have linked := Placement.linked_build Sample.checked Sample.numbered
  have accepted := Module.verifyBody_eq_ok.mpr ⟨_, Sample.body?_build_zero, Sample.verified_live⟩
  obtain ⟨d, hd, -⟩ := Module.exists_method? Sample.body?_build_zero
  have shape : d.signature.sameShape d.signature = true := by simp [MethodSig.sameShape]
  exact copy_of_verified linked accepted hd hd shape rfl Sample.body?_build_zero
    Sample.body?_build_zero (by decide)

end Graft
