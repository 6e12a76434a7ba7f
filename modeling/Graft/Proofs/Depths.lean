import Graft.Proofs.Paths

/-!
# Declared stack depths

An edit of a body leaves it with the deeper of two depths, the one that it declared before and the
one that its simulation finds. The simulation does not ask what is declared, so it finds the same
before the depth is raised and after that.
-/

namespace Graft

theorem Instruction.left_le_after {L : Type} {i : Instruction L} {effect : StackEffect}
    {depth : Nat} : i.left effect depth ≤ after effect depth := by
  rw [left]
  split
  · exact Nat.zero_le _
  · exact le_rfl

theorem toNat_max_ofNat {x : UInt16} {n : Nat} (hn : n ≤ maxDepth) :
    (max x (.ofNat n)).toNat = max x.toNat n := by
  have place : (UInt16.ofNat n).toNat = n := UInt16.toNat_ofNat_of_lt (Nat.lt_succ_of_le hn)
  have order : x ≤ .ofNat n ↔ x.toNat ≤ n := by rw [UInt16.le_iff_toNat_le, place]
  show (if x ≤ .ofNat n then UInt16.ofNat n else x).toNat = _
  rw [Nat.max_def]
  simp only [order]
  split
  · exact place
  · rfl

theorem LiveBody.Enters.le_one {b : LiveBody} {p depth : Nat} (h : b.Enters p depth) :
    depth ≤ 1 := by
  cases h <;> decide

theorem LiveBody.Readable.withMaxStack {a : Arena} {b : LiveBody} (h : b.Readable a)
    (depth : UInt16) : LiveBody.Readable a { b with maxStack := depth } :=
  ⟨⟨h.nodup, h.targets, h.markers⟩, h.stored⟩

namespace Module

variable {m : Module} {k : MethodId} {b b' c : LiveBody} {a : Arena} {p depth r : Nat}

/-- No path through a balanced body comes to an instruction with more than there may be. -/
theorem Balanced.le_maxDepth (h : m.Balanced k b) (reaches : m.Reaches k b p depth) :
    depth ≤ maxDepth := by
  cases reaches with
  | enter enters => exact enters.le_one.trans (by decide)
  | jump before hi => exact Instruction.left_le_after.trans (h.runs _ _ _ before hi).bounded
  | next before hi => exact Instruction.left_le_after.trans (h.runs _ _ _ before hi).bounded

/-- What the simulation finds can be declared. -/
theorem le_maxDepth_of_simulate (hb : m.body? k = some b) (readable : b.Readable m.arena)
    (hs : m.simulate k = .ok r) : r ≤ maxDepth := by
  have balanced := balanced_of_simulate hb readable hs
  obtain ⟨p, depth, i, reaches, hi, rfl | rfl⟩ := (isGreatest_of_simulate hb readable hs).1
  · exact balanced.le_maxDepth reaches
  · exact (balanced.runs p depth i reaches hi).bounded

/-- The simulation does not ask which depth is declared. -/
theorem simulate_rebuilt (hb : m.body? k = some c) (readable : b.Readable a) :
    (m.rebuilt k b a).simulate k = .ok r ↔ ((m.touch k).withBody k b a).simulate k = .ok r := by
  have effects : ∀ (b' b'' : LiveBody) (i : Instruction UInt32),
      ((m.touch k).withBody k b' a).stackEffect k i =
        ((m.touch k).withBody k b'' a).stackEffect k i := fun b' b'' i =>
    Tables.stackEffect_of_outline (Tables.outline_of_declarations
      (declarations_withBody.trans declarations_withBody.symm))
  have body : ∀ b', ((m.touch k).withBody k b' a).body? k = some b' := fun _ =>
    body?_withBody_self (m := m.touch k) hb
  rw [rebuilt_eq hb]
  constructor
  · exact simulate_eq_ok_of_view (body _) (readable.withMaxStack _) (body _) readable rfl rfl
      fun i _ => effects _ _ i
  · exact simulate_eq_ok_of_view (body _) readable (body _) (readable.withMaxStack _) rfl rfl
      fun i _ => effects _ _ i

/-- An edit leaves a body that declares what it did, or what the simulation finds if that is
deeper. -/
theorem maxStack_rebuilt (hb : m.body? k = some c) (hb' : (m.rebuilt k b a).body? k = some b')
    (readable : b'.Readable (m.rebuilt k b a).arena) (hs : (m.rebuilt k b a).simulate k = .ok r) :
    b'.maxStack.toNat = max b.maxStack.toNat r := by
  rw [arena_rebuilt] at readable
  rw [rebuilt_eq hb, body?_withBody_self (m := m.touch k) hb] at hb'
  cases hb'
  have readable : b.Readable a := readable.withMaxStack b.maxStack
  have before := (simulate_rebuilt hb readable).mp hs
  have body : ((m.touch k).withBody k b a).body? k = some b :=
    body?_withBody_self (m := m.touch k) hb
  have raised : ((m.touch k).withBody k b a).raisedDepth k b = max b.maxStack (.ofNat r) := by
    rw [raisedDepth, before]
  rw [raised]
  exact toNat_max_ofNat (le_maxDepth_of_simulate body readable before)

/-- A body that does not simulate declares what it did. -/
theorem declared_rebuilt (hb : m.body? k = some c) (readable : b.Readable a) :
    ∃ b', (m.rebuilt k b a).body? k = some b' ∧ b'.maxStack.toNat =
      ((m.rebuilt k b a).simulate k).toOption.toList.foldl max b.maxStack.toNat := by
  obtain ⟨depth, -, hb'⟩ := exists_body?_rebuilt hb (b := b) (a := a)
  refine ⟨_, hb', ?_⟩
  cases hs : (m.rebuilt k b a).simulate k with
  | ok r => exact maxStack_rebuilt hb hb' (arena_rebuilt ▸ readable.withMaxStack depth) hs
  | error fault =>
    have kept : ((m.touch k).withBody k b a).raisedDepth k b = b.maxStack := by
      rw [raisedDepth]
      cases before : ((m.touch k).withBody k b a).simulate k with
      | ok r => cases hs.symm.trans ((simulate_rebuilt hb readable).mpr before)
      | error fault => rfl
    rw [rebuilt_eq hb, kept, body?_withBody_self (m := m.touch k) hb] at hb'
    rw [← Option.some.inj hb']
    rfl

/-- A body that an edit leaves sound verifies with what it simulates with. -/
theorem verified_of_rebuilt (hb : m.body? k = some c) (sound : b.Sound m.toTables k a)
    (owner? : ∀ id ∈ b.code, a.owner? id = some k)
    (hb' : (m.rebuilt k b a).body? k = some b') (hs : (m.rebuilt k b a).simulate k = .ok r) :
    (m.rebuilt k b a).Verified k b' r ∧ b'.maxStack.toNat = max b.maxStack.toNat r := by
  obtain ⟨depth, -, rfl⟩ := eq_of_body?_rebuilt hb hb'
  have owner? : ∀ id ∈ b.code, (m.rebuilt k b a).arena.owner? id = some k := by
    rw [arena_rebuilt]
    exact owner?
  have sound : LiveBody.Sound m.toTables k (m.rebuilt k b a).arena
      { b with maxStack := depth } := by
    rw [arena_rebuilt]
    exact sound.withMaxStack depth
  have readable : LiveBody.Readable (m.rebuilt k b a).arena { b with maxStack := depth } :=
    ⟨sound.toLinked, fun id hid => Arena.exists_get?_of_owner? (owner? id hid)⟩
  have deepest := maxStack_rebuilt hb hb' readable hs
  have same := declarations_rebuilt hb (b := b) (a := a)
  have methods : m.methods.size ≤ (m.rebuilt k b a).methods.size := by
    rw [rebuilt_eq hb]
    exact (size_methods_withBody (m := m.touch k)).ge
  refine ⟨⟨filled_of_simulate hb' hs, owner?, ?_, hs, deepest ▸ Nat.le_max_right _ _⟩, deepest⟩
  exact sound.congr (Tables.fields_eq_of_declarations same ▸ le_rfl) methods
    (Tables.types_eq_of_declarations same ▸ le_rfl) (Tables.argumentCount_of_declarations same)
    fun _ _ => rfl

end Module

end Graft
