import Graft.Proofs.Splicing

/-!
# Undoing insertions

What was put into a body can be taken out again, and then the body is what it was. The new handles
are in no body from before, so no instruction from before jumps to them, and no range from before
has them as markers. The ranges that came with them lie among them, and go with them.
-/

namespace Graft

/-! ## Handles that were put in front of a place -/

namespace Places

variable {xs : List InsnId} {p : Nat}

/-- The handles that were put in stand from the place on. -/
theorem span_insert (ids : List InsnId) (hp : p ≤ xs.length) :
    ((xs.take p ++ ids ++ xs.drop p).drop p).take ids.length = ids := by
  have front : (xs.take p).length = p := by
    rw [List.length_take]
    omega
  rw [List.append_assoc, List.drop_left' front, List.take_left' rfl]

/-- Without them, the list is what it was. -/
theorem without_insert (ids : List InsnId) (hp : p ≤ xs.length) :
    (xs.take p ++ ids ++ xs.drop p).take p ++
      (xs.take p ++ ids ++ xs.drop p).drop (p + ids.length) = xs := by
  have front : (xs.take p).length = p := by
    rw [List.length_take]
    omega
  have block : (xs.take p ++ ids).length = p + ids.length := by
    rw [List.length_append, front]
  rw [List.drop_left' block, List.append_assoc, List.take_left' front, List.take_append_drop]

end Places

/-! ## Bodies with a block put in -/

namespace LiveBody

variable {k : MethodId} {a : Arena} {b b' : LiveBody} {p n : Nat} {code : List (Instruction InsnId)}
  {ranges : List (ExceptionRange InsnId)}

/-- The body `b'` is `b` with the next `n` handles of the arena in front of a position, and with
ranges in front of its own. It may declare another stack depth. -/
structure Widened (a : Arena) (p n : Nat) (ranges : List (ExceptionRange InsnId))
    (b b' : LiveBody) : Prop where
  place : p ≤ b.code.length
  code : b'.code = b.code.take p ++ a.nextIds n ++ b.code.drop p
  ranges : b'.ranges = ranges ++ b.ranges
  locals : b'.locals = b.locals
  initLocals : b'.initLocals = b.initLocals

namespace Widened

variable (h : Widened a p n ranges b b')
include h

theorem length : b'.code.length = b.code.length + n := by
  have := h.place
  rw [h.code, List.length_append, List.length_append, List.length_take, List.length_drop,
    Arena.length_nextIds]
  omega

theorem mem_code {id : InsnId} : id ∈ b'.code ↔ id ∈ b.code ∨ id ∈ a.nextIds n := by
  rw [h.code]
  exact Places.mem_insert

theorem span (filled : 0 < n) : b'.span p (p + n - 1) = a.nextIds n := by
  have span := Places.span_insert (a.nextIds n) h.place
  rw [Arena.length_nextIds] at span
  rw [LiveBody.span, h.code, show p + n - 1 + 1 - p = n by omega, span]

/-- Once the block and its ranges are gone, nothing but the declared depth is left of them. -/
theorem without (filled : 0 < n) :
    { b'.without p (p + n - 1) with ranges := b.ranges } = { b with maxStack := b'.maxStack } := by
  have without := Places.without_insert (a.nextIds n) h.place
  rw [Arena.length_nextIds] at without
  rw [LiveBody.without, show p + n - 1 + 1 = p + n by omega, h.code, without, h.locals,
    h.initLocals]

theorem nodup (tied : b.Tied k a) (room : a.size + n ≤ Arena.capacity) : b'.code.Nodup := by
  rw [h.code]
  exact Places.nodup_insert tied.nodup (Arena.nodup_nextIds room) fun _ =>
    tied.notMem_of_mem_nextIds room

/-- Nothing outside of the block jumps into it. -/
theorem notMem_of_target (tied : b.Tied k a) (filled : 0 < n) (count : code.length = n)
    (room : a.size + n ≤ Arena.capacity) {q : Nat} {id : InsnId} (here : b'.code[q]? = some id)
    (outside : q < p ∨ p + n - 1 < q) {i : Instruction InsnId}
    (hi : (a.append k code).get? id = some i) : ∀ l ∈ i.targets, l ∉ a.nextIds n := by
  have old : id ∉ a.nextIds n := by
    intro new
    rw [← h.span filled, mem_span (h.nodup tied room),
      Places.idxOf_of_getElem? (h.nodup tied room) here] at new
    omega
  have member : id ∈ b.code := (h.mem_code.mp (List.mem_of_getElem? here)).resolve_right old
  rw [tied.get?_append member] at hi
  intro l hl new
  exact tied.notMem_of_mem_nextIds room new (tied.targets id member i hi l hl)

/-- The ranges from before are those that keep a marker without the block. -/
theorem filter_keeps (tied : b.Tied k a) (room : a.size + n ≤ Arena.capacity)
    (inside : ∀ r ∈ ranges, ∀ l ∈ r.markers, l ∈ a.nextIds n) :
    b'.ranges.filter (Module.keeps (a.nextIds n)) = b.ranges := by
  have gone : ∀ r ∈ ranges, ¬ Module.keeps (a.nextIds n) r = true := by
    intro r hr
    simpa [Module.keeps] using inside r hr
  have kept : ∀ r ∈ b.ranges, Module.keeps (a.nextIds n) r = true := by
    intro r hr
    have stays : r.tryStart ∉ a.nextIds n := fun new =>
      tied.notMem_of_mem_nextIds room new (tied.markers r hr _ r.tryStart_mem_markers)
    have some : ¬ ∀ l ∈ r.markers, l ∈ a.nextIds n := fun all =>
      stays (all _ r.tryStart_mem_markers)
    simpa [Module.keeps] using some
  rw [h.ranges, List.filter_append, List.filter_eq_nil_iff.mpr gone,
    List.filter_eq_self.mpr kept, List.nil_append]

end Widened

end LiveBody

/-! ## Taking a block out again -/

namespace Module

/-- The handles `ids` were put into the body of `k`, which gave `m'`, and taken out again, which
gave `m''`: the body and all slots are as they were in `m`. The declared stack depth alone may have
grown, and nobody owns the handles. -/
structure Undone (m m' m'' : Module) (k : MethodId) (ids : List InsnId) : Prop where
  restored : ∃ b b' b'', m.body? k = some b ∧ m'.body? k = some b' ∧ m''.body? k = some b'' ∧
    b'' = { b with maxStack := b''.maxStack } ∧ b.maxStack ≤ b'.maxStack ∧
      b'.maxStack ≤ b''.maxStack
  slots : ∀ id s, m.arena.slot? id = some s → m''.arena.slot? id = some s
  released : ∀ id ∈ ids, m''.arena.owner? id = none

variable {m : Module} {k : MethodId} {b : LiveBody} {p : Nat}

/-- An edit that puts in a block leaves a body that is wider. -/
theorem exists_widened (hb : m.body? k = some b) (place : p ≤ b.code.length)
    (code : List (Instruction InsnId)) (ranges : List (ExceptionRange InsnId)) :
    ∃ b', (m.rebuilt k { b.insert p (m.arena.nextIds code.length) with
        ranges := ranges ++ b.ranges } (m.arena.append k code)).body? k = some b' ∧
      b.maxStack ≤ b'.maxStack ∧ b.Widened m.arena p code.length ranges b' := by
  obtain ⟨depth, deep, hb'⟩ := exists_body?_rebuilt (a := m.arena.append k code)
    (b := { b.insert p (m.arena.nextIds code.length) with ranges := ranges ++ b.ranges }) hb
  exact ⟨_, hb', deep, ⟨place, rfl, rfl, rfl, rfl⟩⟩

end Module

namespace Edit

variable {m m' : Module} {k : MethodId} {b b' : LiveBody} {p first last : Nat}
  {code : List (Instruction InsnId)} {ranges : List (ExceptionRange InsnId)} {ids : List InsnId}

/-- A span can be taken out if no jump and no range is in the way. -/
theorem apply_removeRange_of_span (hb : m.body? k = some b)
    (positions : first ≤ last ∧ last < b.code.length) (span : b.span first last = ids)
    (jumps : m.checkNoJumpsInto k b first last ids = .ok ())
    (survive : m.survivors k b ids = .ok ranges) :
    (removeRange k first last).apply m =
      (.ok ids, m.rebuilt k { b.without first last with ranges } (m.arena.releaseAll ids)) := by
  subst span
  exact apply_removeRange_ok.mpr ⟨b, ranges, hb, positions, jumps, survive, rfl, rfl⟩

section Widened

variable (tied : b.Tied k m.arena) (filled : 0 < code.length)
  (room : m.arena.size + code.length ≤ Arena.capacity)
  (inside : ∀ r ∈ ranges, ∀ l ∈ r.markers, l ∈ m.arena.nextIds code.length)
  (hb' : m'.body? k = some b') (arena : m'.arena = m.arena.append k code)
  (wide : b.Widened m.arena p code.length ranges b')
include tied filled room inside hb' arena wide

/-- A block can be taken out as long as its ranges lie in it: no jump leads into it, and the ranges
that stay are those from before. -/
theorem apply_removeRange_of_widened :
    (removeRange k p (p + code.length - 1)).apply m' =
      (.ok (m.arena.nextIds code.length),
        m'.rebuilt k { b with maxStack := b'.maxStack }
          (m'.arena.releaseAll (m.arena.nextIds code.length))) := by
  have positions : p + code.length - 1 < b'.code.length := by
    have := wide.place
    rw [wide.length]
    omega
  have jumps : m'.checkNoJumpsInto k b' p (p + code.length - 1) (m.arena.nextIds code.length) =
      .ok () := by
    refine Module.checkNoJumpsInto_eq_ok.mpr fun q id here outside i hi => ?_
    rw [Module.instruction?, arena] at hi
    exact wide.notMem_of_target tied filled rfl room here outside hi
  have kept := wide.filter_keeps tied room inside
  obtain ⟨left, survive⟩ : ∃ left, m'.survivors k b' (m.arena.nextIds code.length) = .ok left := by
    refine Module.exists_survivors.mpr fun r hr keeps l hl new => ?_
    have old : r ∈ b.ranges := by
      rw [← kept]
      exact List.mem_filter.mpr ⟨hr, keeps⟩
    exact tied.notMem_of_mem_nextIds room new (tied.markers r old l hl)
  obtain rfl : left = b.ranges := (Module.survivors_eq_ok survive).1.trans kept
  rw [apply_removeRange_of_span hb' ⟨by omega, positions⟩ (wide.span filled) jumps survive,
    wide.without filled]

/-- What is left then is the body from before. -/
theorem exists_removeRange_of_widened (hb : m.body? k = some b) (deep : b.maxStack ≤ b'.maxStack) :
    ∃ m'', (removeRange k p (p + code.length - 1)).apply m' =
        (.ok (m.arena.nextIds code.length), m'') ∧
      m.Undone m' m'' k (m.arena.nextIds code.length) := by
  obtain ⟨depth, deep', hb''⟩ := Module.exists_body?_rebuilt
    (b := { b with maxStack := b'.maxStack })
    (a := m'.arena.releaseAll (m.arena.nextIds code.length)) hb'
  refine ⟨_, apply_removeRange_of_widened tied filled room inside hb' arena wide,
    ⟨b, b', { b with maxStack := depth }, hb, hb', hb'', rfl, deep, deep'⟩, ?_, ?_⟩
  · intro id s hs
    have known := Arena.index_lt_size_of_slot? hs
    have old : id ∉ m.arena.nextIds code.length := by
      rw [Arena.mem_nextIds room]
      omega
    rw [Module.arena_rebuilt, Arena.slot?_releaseAll, if_neg old, arena,
      Arena.slot?_append_of_lt known, hs]
  · intro id hid
    rw [Module.arena_rebuilt, Arena.owner?_releaseAll, if_pos hid]

end Widened

end Edit

/-- In a linked module, a fragment that was put into a body can be taken out again at once, and so
can an instruction. The handles that are taken out are those that were given. The body then has the
handles, ranges, locals and contents that it had before. -/
theorem removal_undoes_insertion {m : Module} (linked : m.Linked) (k : MethodId) (p : Nat) :
    (∀ (f : Fragment) ids m', f.code ≠ [] → (Edit.splice k p f).apply m = (.ok ids, m') →
      m'.arena.size ≤ Arena.capacity →
        ∃ m'', (Edit.removeRange k p (p + f.code.length - 1)).apply m' = (.ok ids, m'') ∧
          m.Undone m' m'' k ids) ∧
    ∀ i id m', (Edit.insertAt k p i).apply m = (.ok id, m') → m'.arena.size ≤ Arena.capacity →
      ∃ m'', (Edit.removeRange k p p).apply m' = (.ok [id], m'') ∧ m.Undone m' m'' k [id] := by
  constructor
  · intro f ids m' filled ok room
    obtain ⟨b, hb, place, -, rfl, rfl⟩ := Edit.apply_splice_ok.mp ok
    have count : (f.instructions m.arena.size).length = f.code.length := List.length_map _
    rw [Module.arena_rebuilt, Arena.size_append] at room
    obtain ⟨b', hb', deep, wide⟩ := Module.exists_widened hb place
      (f.instructions m.arena.size) (f.liveRanges m.arena.size)
    rw [count] at hb'
    have removed := Edit.exists_removeRange_of_widened (linked.tied hb)
      (by rw [count]; exact List.length_pos_iff.mpr filled) room
      (by rw [count]; exact fun r hr l hl => LiveBody.mem_nextIds_of_marker hr hl)
      hb' Module.arena_rebuilt wide hb deep
    rwa [count] at removed
  · intro i id m' ok room
    obtain ⟨b, hb, place, -, rfl, rfl⟩ := Edit.apply_insertAt_ok.mp ok
    rw [Module.arena_rebuilt, Arena.size_append] at room
    obtain ⟨b', hb', deep, wide⟩ := Module.exists_widened hb place [i] []
    have filled : 0 < [i].length := Nat.one_pos
    have inside : ∀ r ∈ ([] : List (ExceptionRange InsnId)), ∀ l ∈ r.markers,
        l ∈ m.arena.nextIds [i].length := nofun
    have removed := Edit.exists_removeRange_of_widened (linked.tied hb) filled room inside hb'
      Module.arena_rebuilt wide hb deep
    exact removed

/-- An instance: the body of the sample is put into its own protected region and taken out, and so
is an instruction in front of it. -/
theorem removal_undoes_insertion_sample :
    (∃ m' ids, (Edit.splice ⟨0⟩ 2 Sample.whole).apply Sample.file.build = (.ok ids, m') ∧
      ∃ m'', (Edit.removeRange ⟨0⟩ 2 7).apply m' = (.ok ids, m'') ∧
        Sample.file.build.Undone m' m'' ⟨0⟩ ids) ∧
    ∃ m' id, (Edit.insertAt ⟨0⟩ 0 .nop).apply Sample.file.build = (.ok id, m') ∧
      ∃ m'', (Edit.removeRange ⟨0⟩ 0 0).apply m' = (.ok [id], m'') ∧
        Sample.file.build.Undone m' m'' ⟨0⟩ [id] := by
  have linked := Placement.linked_build Sample.checked Sample.numbered
  constructor
  · obtain ⟨m', ids, put, room⟩ := Sample.exists_splice_whole (p := 2) (by decide)
    exact ⟨m', ids, put,
      (removal_undoes_insertion linked ⟨0⟩ 2).1 Sample.whole ids m' (by decide) put room⟩
  · have put := (Edit.apply_insertAt_ok (i := .nop)).mpr ⟨_, Sample.body?_build_zero, Nat.zero_le _,
      ⟨.of_none rfl rfl rfl, .of_none rfl rfl, List.forall_mem_nil _⟩, rfl, rfl⟩
    refine ⟨_, _, put, (removal_undoes_insertion linked ⟨0⟩ 0).2 _ _ _ put ?_⟩
    rw [Module.arena_rebuilt, Arena.size_append]
    decide

end Graft
