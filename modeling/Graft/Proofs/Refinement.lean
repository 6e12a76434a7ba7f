import Graft.Proofs.Positional
import Graft.Proofs.Loading
import Graft.Proofs.Sample

/-!
# Handles refine positions

Edits by handle and edits by position are two descriptions of the same thing: whatever an edit does
to the handles of a body, in the file that is written before and after it does to positions what its
positional meaning says.
-/

namespace Graft

/-- An edit of the instructions of a body, with the labels of its instructions as handles. -/
inductive BodyEdit where
  | insertAt (position : Nat) (i : Instruction InsnId)
  | append (code : List (Instruction InsnId))
  | removeRange (first last : Nat)
  | replaceAt (position : Nat) (i : Instruction InsnId)
  | assignAt (position : Nat) (i : Instruction InsnId)
  | splice (position : Nat) (f : Fragment)

namespace BodyEdit

/-- What is done to a module. -/
def edit (k : MethodId) : BodyEdit → Edit Unit
  | insertAt position i => discard (Edit.insertAt k position i)
  | append code => discard (Edit.append k code)
  | removeRange first last => discard (Edit.removeRange k first last)
  | replaceAt position i => discard (Edit.replaceAt k position i)
  | assignAt position i => Edit.assignAt k position i
  | splice position f => discard (Edit.splice k position f)

/-- What it means by position, `label` being the position of a handle before the edit. -/
def onView (label : InsnId → UInt32) (v : FileBody) : BodyEdit → FileBody
  | insertAt position i => FileBody.insertAt v position (i.mapLabels label)
  | append code => FileBody.append v (code.map (·.mapLabels label))
  | removeRange first last => FileBody.removeRange v first last
  | replaceAt position i => FileBody.replaceAt v position (i.mapLabels label)
  | assignAt position i => FileBody.replaceAt v position (i.mapLabels label)
  | splice position f => FileBody.splice v position f

end BodyEdit

namespace Module

variable {m m' : Module} {k : MethodId} {b b' : LiveBody} {a : Arena}

/-- The view of a body that an edit has left. -/
theorem fileBody_rebuilt (hb : m.body? k = some b) (new : b'.Tied k a) :
    ∃ c, (m.rebuilt k b' a).body? k = some c ∧
      (m.rebuilt k b' a).fileBody k c = .ok { b'.view a with maxStack := c.maxStack } := by
  rw [rebuilt_eq hb]
  refine ⟨_, body?_withBody_self (m := m.touch k) hb,
    fileBody_eq ⟨new.nodup, new.targets, new.markers⟩ ?_⟩
  exact fun id hid => new.exists_get? hid

/-- The body that an edit leaves, and its view, which the edit has made from the old one. -/
theorem exists_rebuilt_of_edit (h : m.Linked) (hb : m.body? k = some b) {e : BodyEdit}
    (ok : (e.edit k).apply m = (.ok (), m')) (room : m'.arena.size ≤ Arena.capacity) :
    ∃ b' a, m' = m.rebuilt k b' a ∧ b'.Tied k a ∧ b'.maxStack = b.maxStack ∧
      b'.locals = b.locals ∧ b'.view a = e.onView b.position (b.view m.arena) := by
  have tied := h.tied hb
  cases e with
  | insertAt p i =>
    obtain ⟨id, ok⟩ := Edit.apply_discard_ok.mp ok
    obtain ⟨c, hc, hp, ⟨-, -, targets⟩, -, rfl⟩ := Edit.apply_insertAt_ok.mp ok
    obtain rfl : b = c := Option.some.inj (hb.symm.trans hc)
    have room : m.arena.size + [i].length ≤ Arena.capacity := by simpa using room
    refine ⟨_, _, rfl, tied.insertBlock [] room ?_ ?_, rfl, rfl, tied.view_insertAt room targets⟩
    · intro j hj l hl
      obtain rfl := List.mem_singleton.mp hj
      exact .inl (targets l hl)
    · exact fun r hr => absurd hr List.not_mem_nil
  | append code =>
    obtain ⟨ids, ok⟩ := Edit.apply_discard_ok.mp ok
    obtain ⟨c, hc, placed, -, rfl⟩ := Edit.apply_append_ok.mp ok
    obtain rfl : b = c := Option.some.inj (hb.symm.trans hc)
    have room : m.arena.size + code.length ≤ Arena.capacity := by simpa using room
    have targets : ∀ i ∈ code, ∀ l ∈ i.targets, l ∈ b.code := fun i hi => (placed i hi).2.2
    refine ⟨_, _, rfl, tied.insertBlock [] room ?_ ?_, rfl, rfl, tied.view_append room targets⟩
    · exact fun i hi l hl => .inl (targets i hi l hl)
    · exact fun r hr => absurd hr List.not_mem_nil
  | removeRange first last =>
    obtain ⟨ids, ok⟩ := Edit.apply_discard_ok.mp ok
    obtain ⟨c, ranges, hc, hs, jumps, survivors, -, rfl⟩ := Edit.apply_removeRange_ok.mp ok
    obtain rfl : b = c := Option.some.inj (hb.symm.trans hc)
    have jumps := checkNoJumpsInto_eq_ok.mp jumps
    obtain ⟨rfl, whole⟩ := survivors_eq_ok survivors
    have sub : ∀ r ∈ b.ranges.filter (keeps (b.span first last)), r ∈ b.ranges :=
      fun _ => List.mem_of_mem_filter
    exact ⟨_, _, rfl, tied.without hs.1 jumps sub whole, rfl, rfl,
      tied.view_without hs.1 jumps whole⟩
  | replaceAt p i =>
    obtain ⟨id, ok⟩ := Edit.apply_discard_ok.mp ok
    obtain ⟨c, old, hc, hold, ⟨-, -, targets⟩, -, rfl⟩ := Edit.apply_replaceAt_ok.mp ok
    obtain rfl : b = c := Option.some.inj (hb.symm.trans hc)
    have room : m.arena.size < Arena.capacity := by
      simpa [Arena.replace, Nat.succ_le_iff] using room
    exact ⟨_, _, rfl, tied.replace room hold targets, rfl, rfl,
      tied.view_replace room hold targets⟩
  | assignAt p i =>
    obtain ⟨c, id, hc, hid, ⟨-, -, targets⟩, rfl⟩ := Edit.apply_assignAt_ok.mp ok
    obtain rfl : b = c := Option.some.inj (hb.symm.trans hc)
    exact ⟨_, _, rfl, tied.assign targets, rfl, rfl, tied.view_assign hid⟩
  | splice p f =>
    obtain ⟨ids, ok⟩ := Edit.apply_discard_ok.mp ok
    obtain ⟨c, hc, hp, -, -, rfl⟩ := Edit.apply_splice_ok.mp ok
    obtain rfl : b = c := Option.some.inj (hb.symm.trans hc)
    have count : (f.instructions m.arena.size).length = f.code.length := List.length_map _
    have room : m.arena.size + f.code.length ≤ Arena.capacity := by simpa [count] using room
    exact ⟨_, _, rfl, tied.splice room, rfl, rfl, tied.view_splice room hp⟩

end Module

/-- In a linked module, an edit of a body that succeeds does to the stored body what it means by
position. The declared stack depth may grow besides; nothing else is different. -/
theorem handles_refine_positions {m m' : Module} {k : MethodId} {b : LiveBody} (linked : m.Linked)
    (hb : m.body? k = some b) (e : BodyEdit) (ok : (e.edit k).apply m = (.ok (), m'))
    (room : m'.arena.size ≤ Arena.capacity) :
    ∃ v b' v', m.fileBody k b = .ok v ∧ m'.body? k = some b' ∧ m'.fileBody k b' = .ok v' ∧
      { v' with maxStack := v.maxStack } = e.onView b.position v := by
  have tied := linked.tied hb
  obtain ⟨c, a, rfl, new, depth, -, view⟩ := Module.exists_rebuilt_of_edit linked hb ok room
  obtain ⟨b', hb', stored⟩ := Module.fileBody_rebuilt hb new
  refine ⟨_, b', _, Module.fileBody_eq tied.toLinked fun id hid => tied.exists_get? hid, hb',
    stored, ?_⟩
  rw [← view]
  exact congrArg (fun n => { c.view a with maxStack := n }) depth.symm

/-- An instance: a branch to the instruction in front of which it is put, in a body with branches
and an exception range. -/
theorem handles_refine_positions_sample :
    ∃ v b' v', Sample.file.build.fileBody ⟨0⟩ (Sample.body.place 0) = .ok v ∧
      ((BodyEdit.edit ⟨0⟩ (.insertAt 4 (.br ⟨4⟩))).apply Sample.file.build).2.body? ⟨0⟩ = some b' ∧
      ((BodyEdit.edit ⟨0⟩ (.insertAt 4 (.br ⟨4⟩))).apply Sample.file.build).2.fileBody ⟨0⟩ b' =
        .ok v' ∧
      { v' with maxStack := v.maxStack } =
        FileBody.insertAt v 4 (.br ((Sample.body.place 0).position ⟨4⟩)) := by
  have check : Sample.file.check = .ok () := by decide +kernel
  have n : Sample.file.build.Numbered := by constructor <;> decide +kernel
  have hb : Sample.file.build.body? ⟨0⟩ = some (Sample.body.place 0) := by decide +kernel
  have inside : ∀ l ∈ (Instruction.br (InsnId.mk 4)).targets, l ∈ (Sample.body.place 0).code := by
    decide +kernel
  have placed := (Edit.apply_insertAt_ok (p := 4) (i := .br ⟨4⟩)).mpr ⟨_, hb, by decide +kernel,
    ⟨.of_none rfl rfl rfl, .of_none rfl rfl, inside⟩, rfl, rfl⟩
  have ok := Edit.apply_discard_ok.mpr ⟨_, placed⟩
  have room : ((BodyEdit.edit ⟨0⟩ (.insertAt 4 (.br ⟨4⟩))).apply Sample.file.build).2.arena.size ≤
      Arena.capacity := by
    rw [BodyEdit.edit, ok, Module.arena_rebuilt, Arena.size_append]
    decide +kernel
  have step : (BodyEdit.edit ⟨0⟩ (.insertAt 4 (.br ⟨4⟩))).apply Sample.file.build =
      (.ok (), ((BodyEdit.edit ⟨0⟩ (.insertAt 4 (.br ⟨4⟩))).apply Sample.file.build).2) := by
    rw [BodyEdit.edit, ok]
  exact handles_refine_positions (Placement.linked_build check n) hb _ step room

end Graft
