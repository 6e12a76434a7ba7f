import Graft.Proofs.Outcomes

/-!
# What edits do to a sound body

An edit changes a body and the slots of the arena together. For each kind of change: a sound body
that owns its handles, and no others, is one again afterwards.
-/

namespace Graft.LiveBody

variable {μ β : Type} {t : Tables μ β} {k : MethodId} {a : Arena} {b : LiveBody} {id old : InsnId}
  {p first last : Nat}

/-- The body is linked, and its handles are those that the method owns. -/
structure Tied (k : MethodId) (a : Arena) (b : LiveBody) : Prop extends Linked a b where
  owner_iff : ∀ id, a.owner? id = some k ↔ id ∈ b.code

/-- The body is sound, and its handles are those that the method owns. -/
structure Owned (t : Tables μ β) (k : MethodId) (a : Arena) (b : LiveBody) : Prop
    extends Sound t k a b where
  owner_iff : ∀ id, a.owner? id = some k ↔ id ∈ b.code

theorem Owned.tied (h : Owned t k a b) : Tied k a b := ⟨h.toLinked, h.owner_iff⟩

theorem Tied.index_lt_size (h : Tied k a b) (hid : id ∈ b.code) : id.index < a.size :=
  Arena.index_lt_size_of_owner? ((h.owner_iff id).mpr hid)

theorem Tied.exists_get? (h : Tied k a b) (hid : id ∈ b.code) : ∃ i, a.get? id = some i :=
  Arena.exists_get?_of_owner? ((h.owner_iff id).mpr hid)

/-- Only the code and the ranges are asked for, not the locals and the declared stack depth. -/
theorem Tied.of_code_eq {b' : LiveBody} (h : Tied k a b) (code : b'.code = b.code)
    (ranges : b'.ranges = b.ranges) : Tied k a b' := by
  refine ⟨⟨?_, ?_, ?_⟩, ?_⟩ <;> rw [code]
  · exact h.nodup
  · exact h.targets
  · exact ranges ▸ h.markers
  · exact h.owner_iff

theorem Tied.withMaxStack (h : Tied k a b) (depth : UInt16) :
    Tied k a { b with maxStack := depth } :=
  h.of_code_eq rfl rfl

theorem Sound.withMaxStack (h : Sound t k a b) (depth : UInt16) :
    Sound t k a { b with maxStack := depth } :=
  ⟨⟨h.nodup, h.targets, h.markers⟩, h.resolves, h.fits, h.ordered⟩

theorem Owned.withMaxStack (h : Owned t k a b) (depth : UInt16) :
    Owned t k a { b with maxStack := depth } :=
  ⟨h.toSound.withMaxStack depth, h.owner_iff⟩

/-! ## New instructions -/

section Block

variable {code : List (Instruction InsnId)}

/-- New handles are not in the body yet. -/
theorem Tied.notMem_of_mem_nextIds (h : Tied k a b) {n : Nat}
    (room : a.size + n ≤ Arena.capacity) (hid : id ∈ a.nextIds n) : id ∉ b.code := by
  intro hm
  have := h.index_lt_size hm
  have := ((Arena.mem_nextIds room).mp hid).1
  omega

theorem get?_append_nextIds {i : Instruction InsnId}
    (room : a.size + code.length ≤ Arena.capacity) (hid : id ∈ a.nextIds code.length)
    (hi : (a.append k code).get? id = some i) : i ∈ code := by
  rw [Arena.get?_append_of_le ((Arena.mem_nextIds room).mp hid).1] at hi
  exact List.mem_of_getElem? hi

theorem Tied.get?_append (h : Tied k a b) (hid : id ∈ b.code) :
    (a.append k code).get? id = a.get? id :=
  Arena.get?_append_of_lt (h.index_lt_size hid)

theorem mem_code_insert {ids : List InsnId} : id ∈ (b.insert p ids).code ↔ id ∈ b.code ∨ id ∈ ids :=
  Places.mem_insert

/-- Instructions that are put into a body may jump to its instructions and to one another; the
ranges that come with them lie among them. -/
theorem Tied.insertBlock (h : Tied k a b) (ranges : List (ExceptionRange InsnId))
    (room : a.size + code.length ≤ Arena.capacity)
    (targets : ∀ i ∈ code, ∀ l ∈ i.targets, l ∈ b.code ∨ l ∈ a.nextIds code.length)
    (markers : ∀ r ∈ ranges, ∀ l ∈ r.markers, l ∈ a.nextIds code.length) :
    Tied k (a.append k code)
      { b.insert p (a.nextIds code.length) with ranges := ranges ++ b.ranges } := by
  have fresh : ∀ id ∈ a.nextIds code.length, id ∉ b.code := fun _ => h.notMem_of_mem_nextIds room
  refine ⟨⟨Places.nodup_insert h.nodup (Arena.nodup_nextIds room) fresh, ?_, ?_⟩, ?_⟩
  · intro id hid i hi l hl
    rw [mem_code_insert]
    rcases mem_code_insert.mp hid with hid | hid
    · exact .inl (h.targets id hid i (h.get?_append hid ▸ hi) l hl)
    · exact targets i (get?_append_nextIds room hid hi) l hl
  · intro r hr l hl
    rw [mem_code_insert]
    rcases List.mem_append.mp hr with hr | hr
    · exact .inr (markers r hr l hl)
    · exact .inl (h.markers r hr l hl)
  · intro id
    rw [mem_code_insert, ← h.owner_iff, Arena.mem_nextIds room]
    exact Arena.owner?_append_iff

/-- If besides their operands fit and their ranges run forward, the body stays sound. -/
theorem Owned.insertBlock (h : Owned t k a b) (ranges : List (ExceptionRange InsnId))
    (room : a.size + code.length ≤ Arena.capacity) (hp : p ≤ b.code.length)
    (operands : ∀ i ∈ code, i.Resolves t ∧ i.Fits (t.argumentCount k) b.locals.length)
    (targets : ∀ i ∈ code, ∀ l ∈ i.targets, l ∈ b.code ∨ l ∈ a.nextIds code.length)
    (markers : ∀ r ∈ ranges, ∀ l ∈ r.markers, l ∈ a.nextIds code.length)
    (ordered : ∀ r ∈ ranges, r.Ordered (a.nextIds code.length).idxOf) :
    Owned t k (a.append k code)
      { b.insert p (a.nextIds code.length) with ranges := ranges ++ b.ranges } := by
  have tied := h.tied.insertBlock (p := p) ranges room targets markers
  have fresh : ∀ id ∈ a.nextIds code.length, id ∉ b.code := fun _ =>
    h.tied.notMem_of_mem_nextIds room
  refine ⟨⟨tied.toLinked, ?_, ?_, ?_⟩, tied.owner_iff⟩
  · intro id hid i hi
    rcases mem_code_insert.mp hid with hid | hid
    · exact h.resolves id hid i (h.tied.get?_append hid ▸ hi)
    · exact (operands i (get?_append_nextIds room hid hi)).1
  · intro id hid i hi
    rcases mem_code_insert.mp hid with hid | hid
    · exact h.fits id hid i (h.tied.get?_append hid ▸ hi)
    · exact (operands i (get?_append_nextIds room hid hi)).2
  · intro r hr
    show r.Ordered (b.code.take p ++ a.nextIds code.length ++ b.code.drop p).idxOf
    rcases List.mem_append.mp hr with hr | hr
    · refine (ordered r hr).mono fun x hx y hy le => ?_
      have hx := markers r hr x hx
      have hy := markers r hr y hy
      rw [Places.idxOf_inserted hp hx (fresh x hx), Places.idxOf_inserted hp hy (fresh y hy)]
      omega
    · refine (h.ordered r hr).mono fun x hx y hy le => ?_
      have hx := h.markers r hr x hx
      have hy := h.markers r hr y hy
      rw [Places.idxOf_insert hx fun hn => fresh x hn hx,
        Places.idxOf_insert hy fun hn => fresh y hn hy]
      split <;> split <;> omega

/-- Jumps inside a fragment become jumps inside its new instructions. -/
theorem mem_nextIds_of_target {f : Fragment} {i : Instruction InsnId} {l : InsnId}
    (hi : i ∈ f.instructions a.size) (hl : l ∈ i.targets) : l ∈ a.nextIds f.code.length := by
  obtain ⟨j, hj, rfl⟩ := List.mem_map.mp hi
  rw [Instruction.targets_mapLabels] at hl
  obtain ⟨x, hx, rfl⟩ := List.mem_map.mp hl
  exact List.mem_of_getElem? (Arena.getElem?_nextIds (f.targets_lt j hj x hx))

theorem mem_nextIds_of_marker {f : Fragment} {r : ExceptionRange InsnId} {l : InsnId}
    (hr : r ∈ f.liveRanges a.size) (hl : l ∈ r.markers) : l ∈ a.nextIds f.code.length := by
  obtain ⟨s, hs, rfl⟩ := List.mem_map.mp hr
  rw [ExceptionRange.markers_mapLabels] at hl
  obtain ⟨x, hx, rfl⟩ := List.mem_map.mp hl
  exact List.mem_of_getElem? (Arena.getElem?_nextIds (f.markers_lt s hs x hx))

end Block

/-! ## Removed instructions -/

theorem mem_span (distinct : b.code.Nodup) :
    id ∈ b.span first last ↔ id ∈ b.code ∧ first ≤ b.code.idxOf id ∧ b.code.idxOf id ≤ last :=
  Places.mem_span distinct

/-- What stays is what is not in the span. -/
theorem mem_code_without (distinct : b.code.Nodup) :
    id ∈ (b.without first last).code ↔ id ∈ b.code ∧ id ∉ b.span first last := by
  rw [mem_span distinct]
  refine (Places.mem_without distinct).trans (and_congr_right fun hm => ?_)
  simp only [hm, true_and]
  omega

section Without

variable {ranges : List (ExceptionRange InsnId)}

/-- Instructions can be taken out if no instruction that stays jumps to them and no range that stays
has them as markers. -/
theorem Tied.without (h : Tied k a b) (hs : first ≤ last)
    (jumps : ∀ p id, b.code[p]? = some id → p < first ∨ last < p →
      ∀ i, a.get? id = some i → ∀ l ∈ i.targets, l ∉ b.span first last)
    (sub : ∀ r ∈ ranges, r ∈ b.ranges)
    (whole : ∀ r ∈ ranges, ∀ l ∈ r.markers, l ∉ b.span first last) :
    Tied k (a.releaseAll (b.span first last)) { b.without first last with ranges } := by
  have stays : ∀ id, id ∈ (b.without first last).code ↔ id ∈ b.code ∧ id ∉ b.span first last :=
    fun _ => mem_code_without h.nodup
  refine ⟨⟨Places.nodup_without h.nodup (by omega), ?_, ?_⟩, ?_⟩
  · intro id hid i hi l hl
    rw [Arena.get?_releaseAll] at hi
    obtain ⟨hm, hout⟩ := (stays id).mp hid
    refine (stays l).mpr ⟨h.targets id hm i hi l hl, ?_⟩
    refine jumps _ id (Places.getElem?_idxOf hm) ?_ i hi l hl
    rw [mem_span h.nodup] at hout
    by_contra inside
    exact hout ⟨hm, by omega, by omega⟩
  · intro r hr l hl
    exact (stays l).mpr ⟨h.markers r (sub r hr) l hl, whole r hr l hl⟩
  · intro id
    rw [Arena.owner?_releaseAll, stays, ← h.owner_iff]
    split
    · rename_i hm
      simp [hm]
    · rename_i hm
      simp [hm]

theorem Owned.without (h : Owned t k a b) (hs : first ≤ last)
    (jumps : ∀ p id, b.code[p]? = some id → p < first ∨ last < p →
      ∀ i, a.get? id = some i → ∀ l ∈ i.targets, l ∉ b.span first last)
    (sub : ∀ r ∈ ranges, r ∈ b.ranges)
    (whole : ∀ r ∈ ranges, ∀ l ∈ r.markers, l ∉ b.span first last) :
    Owned t k (a.releaseAll (b.span first last)) { b.without first last with ranges } := by
  have tied := h.tied.without hs jumps sub whole
  refine ⟨⟨tied.toLinked, ?_, ?_, ?_⟩, tied.owner_iff⟩
  · intro id hid i hi
    rw [Arena.get?_releaseAll] at hi
    exact h.resolves id ((mem_code_without h.nodup).mp hid).1 i hi
  · intro id hid i hi
    rw [Arena.get?_releaseAll] at hi
    exact h.fits id ((mem_code_without h.nodup).mp hid).1 i hi
  · intro r hr
    refine (h.ordered r (sub r hr)).mono fun x hx y hy le => ?_
    have hx := tied.markers r hr x hx
    have hy := tied.markers r hr y hy
    have xout := (Places.mem_without h.nodup).mp hx
    have yout := (Places.mem_without h.nodup).mp hy
    show (b.code.take first ++ b.code.drop (last + 1)).idxOf x ≤
      (b.code.take first ++ b.code.drop (last + 1)).idxOf y
    rw [Places.idxOf_without h.nodup hs hx, Places.idxOf_without h.nodup hs hy]
    split <;> split <;> omega

end Without

/-! ## Replaced instructions -/

section Replace

variable {i : Instruction InsnId}

/-- What the handles stand for after one has been replaced. -/
theorem get?_replace (room : a.size < Arena.capacity) (distinct : b.code.Nodup)
    (inside : ∀ id ∈ b.code, id.index < a.size) (hold : b.code[p]? = some old)
    (hid : id ∈ b.code.set p (.ofIndex a.size)) :
    (a.replace k old i (b.code.set p (.ofIndex a.size))).get? id =
      (if id = .ofIndex a.size then some i else a.get? id).map
        (·.mapLabels (follow old (.ofIndex a.size))) := by
  have index := InsnId.index_ofIndex room
  have fresh : InsnId.ofIndex a.size ∉ b.code := fun hm => by
    have := inside _ hm
    omega
  rw [Arena.replace, Arena.get?_modifyAll (Places.nodup_set distinct fresh), if_pos hid,
    Arena.get?_releaseAll]
  congr 1
  split
  · subst id
    rw [Arena.get?_append_of_le index.ge, index, Nat.sub_self]
    rfl
  · rename_i hne
    rcases (Places.mem_set hold distinct).mp hid with rfl | ⟨hm, -⟩
    · exact absurd rfl hne
    · exact Arena.get?_append_of_lt (inside id hm)

/-- A new handle is not in the body. -/
theorem Tied.next_notMem (h : Tied k a b) (room : a.size < Arena.capacity) :
    InsnId.ofIndex a.size ∉ b.code := by
  intro hm
  have := h.index_lt_size hm
  rw [InsnId.index_ofIndex room] at this
  exact absurd this (lt_irrefl _)

/-- What follows a label of the body is a label of the body with the new instruction. -/
theorem follow_mem (distinct : b.code.Nodup) (hold : b.code[p]? = some old) {new l : InsnId}
    (hl : l ∈ b.code) : follow old new l ∈ b.code.set p new := by
  rw [Places.mem_set hold distinct, follow]
  split
  · exact .inl rfl
  · exact .inr ⟨hl, ‹_›⟩

/-- Every instruction of the body afterwards is an old one or the new one, its labels following. -/
theorem Tied.origin_replace (h : Tied k a b) (room : a.size < Arena.capacity)
    (hold : b.code[p]? = some old) {id : InsnId} {j : Instruction InsnId}
    (hid : id ∈ b.code.set p (.ofIndex a.size))
    (hj : (a.replace k old i (b.code.set p (.ofIndex a.size))).get? id = some j) :
    ∃ j' : Instruction InsnId, j = j'.mapLabels (follow old (.ofIndex a.size)) ∧
      (j' = i ∨ ∃ id ∈ b.code, a.get? id = some j') := by
  rw [get?_replace room h.nodup (fun _ => h.index_lt_size) hold hid] at hj
  obtain ⟨j', hj', rfl⟩ := Option.map_eq_some_iff.mp hj
  refine ⟨j', rfl, ?_⟩
  split at hj'
  · exact .inl (Option.some.inj hj').symm
  · rename_i hne
    obtain ⟨hm, -⟩ := ((Places.mem_set hold h.nodup).mp hid).resolve_left hne
    exact .inr ⟨id, hm, hj'⟩

/-- The new instruction may jump to whatever is in the body, itself included. -/
theorem Tied.replace (h : Tied k a b) (room : a.size < Arena.capacity)
    (hold : b.code[p]? = some old) (targets : ∀ l ∈ i.targets, l ∈ b.code) :
    Tied k (a.replace k old i (b.code.set p (.ofIndex a.size)))
      (b.replace p (follow old (.ofIndex a.size)) (.ofIndex a.size)) := by
  have index := InsnId.index_ofIndex room
  have fresh := h.next_notMem room
  refine ⟨⟨Places.nodup_set h.nodup fresh, ?_, ?_⟩, ?_⟩
  · intro id hid j hj l hl
    obtain ⟨j', rfl, origin⟩ := h.origin_replace room hold hid hj
    rw [Instruction.targets_mapLabels] at hl
    obtain ⟨x, hx, rfl⟩ := List.mem_map.mp hl
    refine follow_mem h.nodup hold ?_
    rcases origin with rfl | ⟨id, hid, hj'⟩
    · exact targets x hx
    · exact h.targets id hid j' hj' x hx
  · intro r hr l hl
    obtain ⟨r', hr', rfl⟩ := List.mem_map.mp hr
    rw [ExceptionRange.markers_mapLabels] at hl
    obtain ⟨x, hx, rfl⟩ := List.mem_map.mp hl
    exact follow_mem h.nodup hold (h.markers r' hr' x hx)
  · intro id
    show _ ↔ id ∈ b.code.set p (.ofIndex a.size)
    have new : a.size ≤ id.index ∧ id.index < a.size + [i].length ↔ id = .ofIndex a.size := by
      rw [← InsnId.index_inj, index, List.length_singleton]
      omega
    rw [Arena.replace, Arena.owner?_modifyAll, Arena.owner?_releaseAll,
      Places.mem_set hold h.nodup]
    split
    · rename_i hm
      obtain rfl := List.mem_singleton.mp hm
      have hne : id ≠ .ofIndex a.size := fun same => fresh (same ▸ List.mem_of_getElem? hold)
      simp [hne]
    · rename_i hm
      rw [List.mem_singleton] at hm
      rw [Arena.owner?_append_iff, new, h.owner_iff]
      tauto

/-- The new instruction may use what the old one might. -/
theorem Owned.replace (h : Owned t k a b) (room : a.size < Arena.capacity)
    (hold : b.code[p]? = some old)
    (hi : i.Resolves t ∧ i.Fits (t.argumentCount k) b.locals.length ∧ ∀ l ∈ i.targets, l ∈ b.code) :
    Owned t k (a.replace k old i (b.code.set p (.ofIndex a.size)))
      (b.replace p (follow old (.ofIndex a.size)) (.ofIndex a.size)) := by
  have tied := h.tied.replace room hold hi.2.2
  have fresh := h.tied.next_notMem room
  refine ⟨⟨tied.toLinked, ?_, ?_, ?_⟩, tied.owner_iff⟩
  · intro id hid j hj
    obtain ⟨j', rfl, origin⟩ := h.tied.origin_replace room hold hid hj
    rw [Instruction.resolves_mapLabels]
    rcases origin with rfl | ⟨id, hid, hj'⟩
    · exact hi.1
    · exact h.resolves id hid j' hj'
  · intro id hid j hj
    obtain ⟨j', rfl, origin⟩ := h.tied.origin_replace room hold hid hj
    rw [Instruction.fits_mapLabels]
    rcases origin with rfl | ⟨id, hid, hj'⟩
    · exact hi.2.1
    · exact h.fits id hid j' hj'
  · intro r hr
    obtain ⟨r', hr', rfl⟩ := List.mem_map.mp hr
    refine (h.ordered r' hr').mapLabels fun x hx y hy le => ?_
    have hx := Places.idxOf_set h.nodup hold fresh (h.markers r' hr' x hx)
    have hy := Places.idxOf_set h.nodup hold fresh (h.markers r' hr' y hy)
    exact hx.trans_le (le.trans hy.ge)

end Replace

/-! ## Assigned instructions, locals and new bodies -/

theorem get?_assign {i : Instruction InsnId} :
    (a.modifyAll [old] fun _ => i).get? id =
      if id = old then (a.get? id).map fun _ => i else a.get? id := by
  rw [Arena.get?_modifyAll (List.nodup_singleton old)]
  simp only [List.mem_singleton]

theorem origin_assign {i j : Instruction InsnId}
    (hj : (a.modifyAll [old] fun _ => i).get? id = some j) : j = i ∨ a.get? id = some j := by
  rw [get?_assign] at hj
  split at hj
  · obtain ⟨_, -, rfl⟩ := Option.map_eq_some_iff.mp hj
    exact .inl rfl
  · exact .inr hj

/-- A handle may stand for whatever may stand in its place. -/
theorem Tied.assign (h : Tied k a b) {i : Instruction InsnId}
    (targets : ∀ l ∈ i.targets, l ∈ b.code) : Tied k (a.modifyAll [id] fun _ => i) b := by
  refine ⟨⟨h.nodup, ?_, h.markers⟩, fun x => ?_⟩
  · intro x hx j hj
    rcases origin_assign hj with rfl | hj
    · exact targets
    · exact h.targets x hx j hj
  · rw [Arena.owner?_modifyAll]
    exact h.owner_iff x

theorem Owned.assign (h : Owned t k a b) {i : Instruction InsnId}
    (hi : i.Resolves t ∧ i.Fits (t.argumentCount k) b.locals.length ∧ ∀ l ∈ i.targets, l ∈ b.code) :
    Owned t k (a.modifyAll [id] fun _ => i) b := by
  have tied : Tied k (a.modifyAll [id] fun _ => i) b := h.tied.assign hi.2.2
  refine ⟨⟨tied.toLinked, ?_, ?_, h.ordered⟩, tied.owner_iff⟩
  · intro x hx j hj
    rcases origin_assign hj with rfl | hj
    · exact hi.1
    · exact h.resolves x hx j hj
  · intro x hx j hj
    rcases origin_assign hj with rfl | hj
    · exact hi.2.1
    · exact h.fits x hx j hj

/-- More locals do no harm. -/
theorem Owned.addLocal (h : Owned t k a b) (s : TypeSig) :
    Owned t k a (b.withLocal s) where
  nodup := h.nodup
  targets := h.targets
  markers := h.markers
  resolves := h.resolves
  fits id hid i hi := by
    obtain ⟨loc, arg⟩ := h.fits id hid i hi
    refine ⟨fun x hx => (loc x hx).trans_le ?_, arg⟩
    simp [withLocal]
  ordered := h.ordered
  owner_iff := h.owner_iff

/-- A body that is thrown away owns nothing any more. -/
theorem Tied.reset (h : Tied k a b) {fresh : LiveBody} (code : fresh.code = [])
    (ranges : fresh.ranges = []) : Tied k (a.releaseAll b.code) fresh where
  toLinked := .of_empty code ranges
  owner_iff id := by
    rw [Arena.owner?_releaseAll, code]
    split
    · simp
    · rename_i hm
      simp [h.owner_iff, hm]

theorem Owned.reset (h : Owned t k a b) {fresh : LiveBody} (code : fresh.code = [])
    (ranges : fresh.ranges = []) : Owned t k (a.releaseAll b.code) fresh :=
  ⟨.of_empty code ranges, (h.tied.reset code ranges).owner_iff⟩

end Graft.LiveBody
