import Graft.Proofs.Accord
import Graft.Proofs.Containment
import Graft.Proofs.Refinement

/-!
# Edits that bring no handles

The instructions that a plan puts into a body do not refer to others by handle. What such an edit
does to a body can be told from the body's view alone, so twins stay twins.
-/

namespace Graft

variable {μ β : Type} {t : Tables μ β}

/-- The types that a fragment handles exceptions of are in the table. -/
def Fragment.Known (t : Tables μ β) (f : Fragment) : Prop :=
  ∀ r ∈ f.ranges, ∀ s, r.caught? = some s → t.Knows s

namespace BodyEdit

variable {k : MethodId} {m m' : Module} {b b' : LiveBody} {e : BodyEdit} {v : FileBody}

/-- The instructions that are put in with handles as labels. -/
def instructions : BodyEdit → List (Instruction InsnId)
  | insertAt _ i => [i]
  | append code => code
  | removeRange _ _ => []
  | replaceAt _ i => [i]
  | assignAt _ i => [i]
  | splice _ _ => []

/-- The fragment that is put in. -/
def fragment? : BodyEdit → Option Fragment
  | splice _ f => some f
  | _ => none

/-- No instruction that is put in refers to others by handle. -/
def Blind (e : BodyEdit) : Prop := ∀ i ∈ e.instructions, i.targets = []

/-- How many slots the edit takes. -/
def slots : BodyEdit → Nat
  | insertAt _ _ => 1
  | append code => code.length
  | removeRange _ _ => 0
  | replaceAt _ _ => 1
  | assignAt _ _ => 0
  | splice _ f => f.code.length

theorem blind_insertAt {p : Nat} {i : Instruction InsnId} (h : i.targets = []) :
    (insertAt p i).Blind := List.forall_mem_singleton.mpr h

theorem blind_replaceAt {p : Nat} {i : Instruction InsnId} (h : i.targets = []) :
    (replaceAt p i).Blind := List.forall_mem_singleton.mpr h

theorem blind_removeRange {first last : Nat} : (removeRange first last).Blind :=
  List.forall_mem_nil _

theorem blind_splice {p : Nat} {f : Fragment} : (splice p f).Blind := List.forall_mem_nil _

/-- Where the handles of the body are does not matter then. -/
theorem Blind.onView (h : e.Blind) (label label' : InsnId → UInt32) :
    e.onView label v = e.onView label' v := by
  have same : ∀ i ∈ e.instructions, i.mapLabels label = i.mapLabels label' := fun i hi =>
    Instruction.mapLabels_congr fun l hl => by
      rw [h i hi] at hl
      cases hl
  cases e with
  | insertAt p i => exact congrArg (FileBody.insertAt v p) (same i List.mem_cons_self)
  | append code => exact congrArg (FileBody.append v) (List.map_congr_left same)
  | removeRange first last => rfl
  | replaceAt p i => exact congrArg (FileBody.replaceAt v p) (same i List.mem_cons_self)
  | assignAt p i => exact congrArg (FileBody.replaceAt v p) (same i List.mem_cons_self)
  | splice p f => rfl

/-! ## What all these edits have in common -/

theorem strict_edit : (e.edit k).Strict := by
  cases e with
  | insertAt => exact Edit.staged_insertAt.strict.discard
  | append => exact Edit.staged_append.strict.discard
  | removeRange => exact Edit.staged_removeRange.strict.discard
  | replaceAt => exact Edit.staged_replaceAt.strict.discard
  | assignAt => exact Edit.staged_assignAt.strict
  | splice => exact Edit.staged_splice.strict.discard

theorem contained_edit : (e.edit k).Contained k := by
  cases e with
  | insertAt => exact Edit.contained_insertAt.discard
  | append => exact Edit.contained_append.discard
  | removeRange => exact Edit.contained_removeRange.discard
  | replaceAt => exact Edit.contained_replaceAt.discard
  | assignAt => exact Edit.contained_assignAt
  | splice => exact Edit.contained_splice.discard

/-- What is known of an edit that was done: what it has put in mentions only what is there, and it
has taken its slots. -/
structure Done (k : MethodId) (m m' : Module) (e : BodyEdit) : Prop where
  body : ∃ b, m.body? k = some b
  code : ∀ i ∈ e.instructions, i.Resolves m.toTables
  fragment : ∀ f, e.fragment? = some f → ∀ i ∈ f.code, i.Resolves m.toTables
  size : m'.arena.size = m.arena.size + e.slots

theorem done_of_apply (ok : (e.edit k).apply m = (.ok (), m')) : e.Done k m m' := by
  have absent : ∀ {P : Fragment → Prop}, e.fragment? = none →
      ∀ f, e.fragment? = some f → P f := fun none f some => by
    rw [none] at some
    cases some
  cases e with
  | insertAt p i =>
    obtain ⟨id, ok⟩ := Edit.apply_discard_ok.mp ok
    obtain ⟨b, hb, -, ⟨resolves, -, -⟩, -, rfl⟩ := Edit.apply_insertAt_ok.mp ok
    refine ⟨⟨b, hb⟩, List.forall_mem_singleton.mpr resolves, absent rfl, ?_⟩
    rw [Module.arena_rebuilt, Arena.size_append]
    rfl
  | append code =>
    obtain ⟨ids, ok⟩ := Edit.apply_discard_ok.mp ok
    obtain ⟨b, hb, placed, -, rfl⟩ := Edit.apply_append_ok.mp ok
    refine ⟨⟨b, hb⟩, fun i hi => (placed i hi).1, absent rfl, ?_⟩
    rw [Module.arena_rebuilt, Arena.size_append]
    rfl
  | removeRange first last =>
    obtain ⟨ids, ok⟩ := Edit.apply_discard_ok.mp ok
    obtain ⟨b, ranges, hb, -, -, -, -, rfl⟩ := Edit.apply_removeRange_ok.mp ok
    refine ⟨⟨b, hb⟩, List.forall_mem_nil _, absent rfl, ?_⟩
    rw [Module.arena_rebuilt, Arena.size_releaseAll]
    rfl
  | replaceAt p i =>
    obtain ⟨id, ok⟩ := Edit.apply_discard_ok.mp ok
    obtain ⟨b, old, hb, -, ⟨resolves, -, -⟩, -, rfl⟩ := Edit.apply_replaceAt_ok.mp ok
    refine ⟨⟨b, hb⟩, List.forall_mem_singleton.mpr resolves, absent rfl, ?_⟩
    rw [Module.arena_rebuilt, Arena.replace, Arena.size_modifyAll, Arena.size_releaseAll,
      Arena.size_append]
    rfl
  | assignAt p i =>
    obtain ⟨b, id, hb, -, ⟨resolves, -, -⟩, rfl⟩ := Edit.apply_assignAt_ok.mp ok
    refine ⟨⟨b, hb⟩, List.forall_mem_singleton.mpr resolves, absent rfl, ?_⟩
    rw [Module.arena_rebuilt, Arena.size_modifyAll]
    rfl
  | splice p f =>
    obtain ⟨ids, ok⟩ := Edit.apply_discard_ok.mp ok
    obtain ⟨b, hb, -, operands, -, rfl⟩ := Edit.apply_splice_ok.mp ok
    refine ⟨⟨b, hb⟩, List.forall_mem_nil _, ?_, ?_⟩
    · rintro _ ⟨⟩
      exact fun i hi => (operands i hi).1
    · rw [Module.arena_rebuilt, Arena.size_append, Fragment.instructions, List.length_map]
      rfl

end BodyEdit

/-! ## What a body mentions afterwards -/

namespace FileBody

variable {v : FileBody} {p : Nat}

theorem Known.insertBlock (h : v.Known t) {code : List (Instruction UInt32)}
    {ranges : List (ExceptionRange UInt32)} (resolves : ∀ i ∈ code, i.Resolves t)
    (caught : ∀ r ∈ ranges, ∀ s, r.caught? = some s → t.Knows s) :
    (FileBody.insertBlock v p code ranges).Known t where
  resolves i hi := by
    simp only [FileBody.insertBlock, List.mem_append, List.mem_map] at hi
    rcases hi with (⟨j, hj, rfl⟩ | hi) | ⟨j, hj, rfl⟩
    · exact Instruction.resolves_mapLabels.mpr (h.resolves j (List.mem_of_mem_take hj))
    · exact resolves i hi
    · exact Instruction.resolves_mapLabels.mpr (h.resolves j (List.mem_of_mem_drop hj))
  caught r hr s hs := by
    rcases List.mem_append.mp hr with hr | hr
    · exact caught r hr s hs
    · obtain ⟨r', hr', rfl⟩ := List.mem_map.mp hr
      exact h.caught r' hr' s (ExceptionRange.caught?_mapLabels _ r' ▸ hs)
  locals := h.locals
  count := h.count

/-- The view after an edit mentions what it did before, and what was put in. -/
theorem Known.onView (h : v.Known t) {e : BodyEdit} (label : InsnId → UInt32)
    (code : ∀ i ∈ e.instructions, i.Resolves t)
    (fragment : ∀ f, e.fragment? = some f → (∀ i ∈ f.code, i.Resolves t) ∧ f.Known t) :
    (e.onView label v).Known t := by
  have set : ∀ p i, i ∈ e.instructions → (FileBody.replaceAt v p (i.mapLabels label)).Known t := by
    refine fun p i hi => ⟨fun j hj => ?_, h.caught, h.locals, h.count⟩
    rcases List.mem_or_eq_of_mem_set hj with hj | rfl
    · exact h.resolves j hj
    · exact Instruction.resolves_mapLabels.mpr (code i hi)
  cases e with
  | insertAt p i =>
    refine h.insertBlock (List.forall_mem_singleton.mpr ?_) (List.forall_mem_nil _)
    exact Instruction.resolves_mapLabels.mpr (Instruction.resolves_mapLabels.mpr
      (code i List.mem_cons_self))
  | append new =>
    refine ⟨fun i hi => ?_, h.caught, h.locals, h.count⟩
    rcases List.mem_append.mp hi with hi | hi
    · exact h.resolves i hi
    · obtain ⟨j, hj, rfl⟩ := List.mem_map.mp hi
      exact Instruction.resolves_mapLabels.mpr (code j hj)
  | removeRange first last =>
    refine ⟨fun i hi => ?_, fun r hr s hs => ?_, h.locals, h.count⟩
    · obtain ⟨j, hj, rfl⟩ := List.mem_map.mp hi
      refine Instruction.resolves_mapLabels.mpr (h.resolves j ?_)
      exact (List.mem_append.mp hj).elim List.mem_of_mem_take List.mem_of_mem_drop
    · obtain ⟨r', hr', rfl⟩ := List.mem_map.mp hr
      exact h.caught r' (List.mem_of_mem_filter hr') s (ExceptionRange.caught?_mapLabels _ r' ▸ hs)
  | replaceAt p i => exact set p i List.mem_cons_self
  | assignAt p i => exact set p i List.mem_cons_self
  | splice p f =>
    obtain ⟨resolves, caught⟩ := fragment f rfl
    refine h.insertBlock ?_ ?_
    · refine List.forall_mem_map.mpr fun i hi => ?_
      exact Instruction.resolves_mapLabels.mpr (resolves i hi)
    · refine List.forall_mem_map.mpr fun r hr s hs => ?_
      exact caught r hr s (ExceptionRange.caught?_mapLabels _ r ▸ hs)

end FileBody

namespace Module

variable {m m' m₁ : Module} {k : MethodId} {b b' : LiveBody} {e : BodyEdit}

/-! ## Storable modules -/

/-- What an edit of a storable module puts in can be put in. -/
theorem Storable.exists_replacement (h : m.Storable) (hb : m.body? k = some b)
    (fragment : ∀ f, e.fragment? = some f → f.Known m.toTables)
    (ok : (e.edit k).apply m = (.ok (), m₁)) (room : m₁.arena.size ≤ Arena.capacity) :
    ∃ c a, m₁ = m.rebuilt k c a ∧ m.Replacement k c a ∧
      c.view a = e.onView b.position (b.view m.arena) := by
  obtain ⟨c, a, rfl, tied, -, locals, view⟩ := exists_rebuilt_of_edit h.linked hb ok room
  have done := BodyEdit.done_of_apply ok
  have frame := (BodyEdit.contained_edit.keeps_of_eq h.linked.claimed ok room).2.arena
  rw [arena_rebuilt] at room frame
  refine ⟨c, a, rfl, ⟨⟨b, hb⟩, frame, tied, (h.indexed_body hb).of_locals_eq locals, ?_, room⟩,
    view⟩
  rw [view]
  exact (h.known hb).onView b.position done.code fun f hf => ⟨done.fragment f hf, fragment f hf⟩

/-! ## Twins -/

/-- Nothing is in the way of a span in one of two bodies if it is not in the other. -/
theorem Alike.removable (h : Alike k m m' b b') {first last : Nat}
    {ranges : List (ExceptionRange InsnId)}
    (jumps : m.checkNoJumpsInto k b first last (b.span first last) = .ok ())
    (survivors : m.survivors k b (b.span first last) = .ok ranges) :
    m'.checkNoJumpsInto k b' first last (b'.span first last) = .ok () ∧
      ∃ ranges', m'.survivors k b' (b'.span first last) = .ok ranges' := by
  constructor
  · rw [checkNoJumpsInto_eq_ok_view h.readable', h.view]
    exact (checkNoJumpsInto_eq_ok_view h.readable).mp jumps
  · rw [exists_survivors_view h.readable', h.view]
    exact (exists_survivors_view h.readable).mp ⟨ranges, survivors⟩

/-- What can be done to a body can be done to one that looks alike. -/
theorem Alike.exists_edit (h : Alike k m m' b b') (blind : e.Blind)
    (ok : (e.edit k).apply m = (.ok (), m₁)) : ∃ m₁', (e.edit k).apply m' = (.ok (), m₁') := by
  have known : ∀ {c}, m.body? k = some c → c = b := fun hc =>
    Option.some.inj (hc.symm.trans h.body)
  -- of the checks of an instruction, only that of its targets asks for handles of the body
  have placed : ∀ i ∈ e.instructions,
      i.Resolves m.toTables ∧ i.Fits (m.argumentCount k) b.locals.length →
      i.Resolves m'.toTables ∧ i.Fits (m'.argumentCount k) b'.locals.length ∧
        ∀ l ∈ i.targets, l ∈ b'.code := by
    rintro i hi ⟨resolves, fits⟩
    refine ⟨h.resolves.mpr resolves, h.fits.mpr fits, ?_⟩
    rw [blind i hi]
    exact List.forall_mem_nil _
  cases e with
  | insertAt p i =>
    obtain ⟨id, ok⟩ := Edit.apply_discard_ok.mp ok
    obtain ⟨c, hc, hp, ⟨resolves, fits, -⟩, -, -⟩ := Edit.apply_insertAt_ok.mp ok
    obtain rfl := known hc
    exact ⟨_, Edit.apply_discard_ok.mpr ⟨_, Edit.apply_insertAt_ok.mpr ⟨b', h.body',
      h.length ▸ hp, placed i List.mem_cons_self ⟨resolves, fits⟩, rfl, rfl⟩⟩⟩
  | append code =>
    obtain ⟨ids, ok⟩ := Edit.apply_discard_ok.mp ok
    obtain ⟨c, hc, operands, -, -⟩ := Edit.apply_append_ok.mp ok
    obtain rfl := known hc
    exact ⟨_, Edit.apply_discard_ok.mpr ⟨_, Edit.apply_append_ok.mpr ⟨b', h.body',
      fun i hi => placed i hi ⟨(operands i hi).1, (operands i hi).2.1⟩, rfl, rfl⟩⟩⟩
  | removeRange first last =>
    obtain ⟨ids, ok⟩ := Edit.apply_discard_ok.mp ok
    obtain ⟨c, ranges, hc, hs, jumps, survivors, -, -⟩ := Edit.apply_removeRange_ok.mp ok
    obtain rfl := known hc
    obtain ⟨jumps', ranges', survivors'⟩ := h.removable jumps survivors
    exact ⟨_, Edit.apply_discard_ok.mpr ⟨_, Edit.apply_removeRange_ok.mpr ⟨b', ranges', h.body',
      h.length ▸ hs, jumps', survivors', rfl, rfl⟩⟩⟩
  | replaceAt p i =>
    obtain ⟨id, ok⟩ := Edit.apply_discard_ok.mp ok
    obtain ⟨c, old, hc, hold, ⟨resolves, fits, -⟩, -, -⟩ := Edit.apply_replaceAt_ok.mp ok
    obtain rfl := known hc
    have hp : p < b'.code.length := h.length ▸ (List.getElem?_eq_some_iff.mp hold).1
    exact ⟨_, Edit.apply_discard_ok.mpr ⟨_, Edit.apply_replaceAt_ok.mpr ⟨b', _, h.body',
      List.getElem?_eq_getElem hp, placed i List.mem_cons_self ⟨resolves, fits⟩, rfl, rfl⟩⟩⟩
  | assignAt p i =>
    obtain ⟨c, id, hc, hid, ⟨resolves, fits, -⟩, -⟩ := Edit.apply_assignAt_ok.mp ok
    obtain rfl := known hc
    have hp : p < b'.code.length := h.length ▸ (List.getElem?_eq_some_iff.mp hid).1
    exact ⟨_, Edit.apply_assignAt_ok.mpr ⟨b', _, h.body', List.getElem?_eq_getElem hp,
      placed i List.mem_cons_self ⟨resolves, fits⟩, rfl⟩⟩
  | splice p f =>
    obtain ⟨ids, ok⟩ := Edit.apply_discard_ok.mp ok
    obtain ⟨c, hc, hp, operands, -, -⟩ := Edit.apply_splice_ok.mp ok
    obtain rfl := known hc
    exact ⟨_, Edit.apply_discard_ok.mpr ⟨_, Edit.apply_splice_ok.mpr ⟨b', h.body', h.length ▸ hp,
      fun i hi => ⟨h.resolves.mpr (operands i hi).1, h.fits.mpr (operands i hi).2⟩, rfl, rfl⟩⟩⟩

end Module

namespace Edit

open Graft.Module

variable {m m' : Module} {k : MethodId} {e : BodyEdit}

/-- An edit that brings no handles does the same to twins. -/
theorem agree_bodyEdit (h : Twin m m') (blind : e.Blind)
    (fragment : ∀ f, e.fragment? = some f → f.Known m.toTables) :
    Agree m m' (e.edit k) (e.edit k) := by
  refine .of_strict BodyEdit.strict_edit BodyEdit.strict_edit (fun _ m₁ ok room => ?_)
    fun _ m₁' ok' => ?_
  · have done := BodyEdit.done_of_apply ok
    obtain ⟨b, hb⟩ := done.body
    obtain ⟨b', hb', alike⟩ := h.exists_alike hb
    obtain ⟨m₁', ok'⟩ := alike.exists_edit blind ok
    -- the edit takes as many slots here as there, so that there is room for it here too
    have slots : m₁'.arena.size ≤ m₁.arena.size := by
      rw [done.size, (BodyEdit.done_of_apply ok').size]
      exact Nat.add_le_add_right h.slots _
    have fragment' : ∀ f, e.fragment? = some f → f.Known m'.toTables := fun f hf r hr s hs id hid =>
      Tables.types_eq_of_declarations h.declarations ▸ fragment f hf r hr s hs id hid
    obtain ⟨c, a, rfl, new, view⟩ := h.storable.exists_replacement hb fragment ok room
    obtain ⟨c', a', rfl, new', view'⟩ :=
      h.storable'.exists_replacement hb' fragment' ok' (slots.trans room)
    refine ⟨_, ok', h.rebuilt new new' ?_ (by simpa using slots)⟩
    rw [view, view', alike.view]
    exact blind.onView _ _
  · obtain ⟨b', hb'⟩ := (BodyEdit.done_of_apply ok').body
    obtain ⟨b, -, alike⟩ := h.exists_alike' hb'
    obtain ⟨m₁, ok⟩ := alike.symm.exists_edit blind ok'
    exact ⟨(), m₁, ok⟩

end Edit

end Graft
