import Graft.Proofs.Blindness
import Graft.Proofs.Injection
import Graft.Proofs.Padding

/-!
# Declared depths keep up

An edit of the code of a method ends by simulating what it has left. If a depth is found, the body
declares it unless it declares more; if none is found, maybe because the body is half finished, the
body declares what it did. So after any number of edits a body declares the deepest of all depths
that were found on the way, and of the one that it declared in the beginning.
-/

namespace Graft

/-- The greatest of a number and a list is at most what all of them are at most. -/
theorem foldl_max_le_iff {n d : Nat} {ns : List Nat} :
    ns.foldl max n ≤ d ↔ n ≤ d ∧ ∀ r ∈ ns, r ≤ d := by
  induction ns generalizing n with
  | nil => simp
  | cons r ns ih => rw [List.foldl_cons, ih, Nat.max_le, List.forall_mem_cons, and_assoc]

/-- What can be done to the body of a method that stays in place. -/
inductive MethodEdit where
  | code (e : BodyEdit)
  | assign (id : InsnId) (i : Instruction InsnId)
  | copyRange (source : MethodId) (first last position : Nat)
  | pad (position count : Nat)
  | addLocal (type : TypeSig)
  | injectCall (callee : MethodId)

namespace MethodEdit

/-- What is done to a module. -/
def edit (k : MethodId) : MethodEdit → Edit Unit
  | code e => e.edit k
  | assign id i => Edit.assign k id i
  | copyRange source first last position => discard (Edit.copyRange k source first last position)
  | pad position count => discard (Edit.pad k position count)
  | addLocal type => discard (Edit.addLocal k type)
  | injectCall callee => discard (Edit.injectCall k callee)

/-- Is the body simulated in the end? -/
def simulates : MethodEdit → Bool
  | addLocal _ => false
  | _ => true

/-- The depth that the simulation finds in the end, if it is asked and finds one. -/
def found (k : MethodId) (m : Module) (e : MethodEdit) : List Nat :=
  if e.simulates then (m.simulate k).toOption.toList else []

theorem found_of_simulate {k : MethodId} {m : Module} {e : MethodEdit} {depth : Nat}
    (simulates : e.simulates = true) (hs : m.simulate k = .ok depth) : e.found k m = [depth] := by
  rw [found, if_pos simulates, hs]
  rfl

end MethodEdit

namespace Module

/-- Edits of `k` that succeed lead from `m` to another module. The depths are those that were found
after them. -/
inductive Leads (k : MethodId) (m : Module) : List Nat → Module → Prop where
  | start : Leads k m [] m
  | edit {depths : List Nat} {m₁ m₂ : Module} (e : MethodEdit) (before : Leads k m depths m₁)
    (ok : (e.edit k).apply m₁ = (.ok (), m₂)) (room : m₂.arena.size ≤ Arena.capacity) :
    Leads k m (depths ++ e.found k m₂) m₂

variable {m m' : Module} {k : MethodId} {b : LiveBody} {e : MethodEdit} {depths : List Nat}

/-! ## One edit -/

/-- In the end, what simulates a body is an edit of its code. -/
theorem exists_codeEdit (linked : m.Linked) (hb : m.body? k = some b)
    (simulates : e.simulates = true) (ok : (e.edit k).apply m = (.ok (), m')) :
    ∃ m₀ b₀ c, m₀.Linked ∧ m₀.body? k = some b₀ ∧ b₀.maxStack = b.maxStack ∧
      (BodyEdit.edit k c).apply m₀ = (.ok (), m') := by
  cases e with
  | code c => exact ⟨m, b, c, linked, hb, rfl, ok⟩
  | assign id i =>
    obtain ⟨c, hc, hid, placed, rfl⟩ := Edit.apply_assign_ok.mp ok
    refine ⟨m, b, .assignAt (c.code.idxOf id) i, linked, hb, rfl, ?_⟩
    exact Edit.apply_assignAt_ok.mpr ⟨c, id, hc, Places.getElem?_idxOf hid, placed, rfl⟩
  | copyRange source first last p =>
    obtain ⟨ids, ok⟩ := Edit.apply_discard_ok.mp ok
    obtain ⟨f, -, ok⟩ := Edit.apply_copyRange_ok.mp ok
    exact ⟨m, b, .splice p f, linked, hb, rfl, Edit.apply_discard_ok.mpr ⟨ids, ok⟩⟩
  | pad p n =>
    obtain ⟨ids, ok⟩ := Edit.apply_discard_ok.mp ok
    exact ⟨m, b, .splice p (.padding n), linked, hb, rfl,
      Edit.apply_discard_ok.mpr ⟨ids, Edit.splice_of_pad ok⟩⟩
  | addLocal type => cases simulates
  | injectCall callee =>
    obtain ⟨ids, ok⟩ := Edit.apply_discard_ok.mp ok
    obtain ⟨-, -, ⟨-, ok⟩ | ⟨type, constructor, slot, m₁, -, added, ok⟩⟩ :=
      Edit.apply_injectCall_ok.mp ok
    · exact ⟨m, b, .splice 0 _, linked, hb, rfl, Edit.apply_discard_ok.mpr ⟨ids, ok⟩⟩
    · -- the local for the receiver comes first, and leaves the declared depth alone
      obtain ⟨c, hc, -, -, -, rfl⟩ := Edit.apply_addLocal_ok.mp added
      obtain rfl : b = c := Option.some.inj (hb.symm.trans hc)
      exact ⟨_, b.withLocal type, .splice 0 _, linked.withLocal hb,
        body?_withBody_self (m := m.touch k) hb, rfl, Edit.apply_discard_ok.mpr ⟨ids, ok⟩⟩

/-- What one edit does: the body declares the deeper of what it did and of what was found. -/
theorem declared_of_edit (linked : m.Linked) (hb : m.body? k = some b)
    (ok : (e.edit k).apply m = (.ok (), m')) (room : m'.arena.size ≤ Arena.capacity) :
    m'.Linked ∧ ∃ b', m'.body? k = some b' ∧
      b'.maxStack.toNat = (e.found k m').foldl max b.maxStack.toNat := by
  by_cases simulates : e.simulates = true
  · obtain ⟨m₀, b₀, c, linked₀, hb₀, same, ok⟩ := exists_codeEdit linked hb simulates ok
    have frame := (BodyEdit.contained_edit.keeps_of_eq linked₀.claimed ok room).2.arena
    obtain ⟨b₁, a, rfl, tied, depth, -, -⟩ := exists_rebuilt_of_edit linked₀ hb₀ ok room
    rw [arena_rebuilt] at frame
    rw [MethodEdit.found, if_pos simulates, ← same, ← depth]
    exact ⟨linked₀.rebuilt hb₀ frame tied, declared_rebuilt hb₀ tied.readable⟩
  · cases e with
    | addLocal type =>
      obtain ⟨slot, ok⟩ := Edit.apply_discard_ok.mp ok
      obtain ⟨c, hc, -, -, -, rfl⟩ := Edit.apply_addLocal_ok.mp ok
      obtain rfl : b = c := Option.some.inj (hb.symm.trans hc)
      exact ⟨linked.withLocal hb, b.withLocal type, body?_withBody_self (m := m.touch k) hb, rfl⟩
    | _ => exact absurd rfl simulates

/-! ## Any number of edits -/

/-- The run declares the deepest of all. -/
theorem Leads.declared (run : m.Leads k depths m') (linked : m.Linked) (hb : m.body? k = some b) :
    m'.Linked ∧ ∃ b', m'.body? k = some b' ∧
      b'.maxStack.toNat = depths.foldl max b.maxStack.toNat := by
  induction run with
  | start => exact ⟨linked, b, hb, rfl⟩
  | edit e before ok room ih =>
    obtain ⟨linked₁, b₁, hb₁, deepest⟩ := ih
    rw [List.foldl_append, ← deepest]
    exact declared_of_edit linked₁ hb₁ ok room

end Module

/-- Let edits of a method of a linked module succeed, one after the other. The body then declares
exactly the deepest of what it declared in the beginning and of all that was found on the way. The
next edit does not lower this. Unless it only adds a local, the body declares what its simulation
finds, if that finds anything, and verification does not find the declared depth exceeded. -/
theorem declared_depth_keeps_up {m m₁ : Module} {k : MethodId} {b : LiveBody} {depths : List Nat}
    (linked : m.Linked) (hb : m.body? k = some b) (run : m.Leads k depths m₁) :
    ∃ b₁, m₁.body? k = some b₁ ∧ b₁.maxStack.toNat = depths.foldl max b.maxStack.toNat ∧
      ∀ (e : MethodEdit) (m₂ : Module), (e.edit k).apply m₁ = (.ok (), m₂) →
        m₂.arena.size ≤ Arena.capacity →
        ∃ b₂, m₂.body? k = some b₂ ∧ b₁.maxStack ≤ b₂.maxStack ∧
          (e.simulates = true →
            (∀ depth, m₂.simulate k = .ok depth → depth ≤ b₂.maxStack.toNat) ∧
            ∀ name declared required,
              m₂.verifyBody k ≠ .error (.maxStackExceeded name declared required)) := by
  obtain ⟨linked₁, b₁, hb₁, deepest⟩ := run.declared linked hb
  refine ⟨b₁, hb₁, deepest, fun e m₂ ok room => ?_⟩
  obtain ⟨-, b₂, hb₂, raised⟩ := Module.declared_of_edit linked₁ hb₁ ok room
  obtain ⟨kept, found⟩ := foldl_max_le_iff.mp raised.ge
  have keepsUp : e.simulates = true → ∀ depth, m₂.simulate k = .ok depth →
      depth ≤ b₂.maxStack.toNat := by
    intro simulates depth hs
    rw [MethodEdit.found_of_simulate simulates hs] at found
    exact found depth (List.mem_singleton_self depth)
  refine ⟨b₂, hb₂, UInt16.le_iff_toNat_le.mpr kept, fun simulates => ⟨keepsUp simulates, ?_⟩⟩
  intro name declared required failed
  obtain ⟨c, hc, hs, exceeded⟩ := Module.verifyBody_exceeded failed
  obtain rfl : b₂ = c := Option.some.inj (hb₂.symm.trans (Module.body_eq_ok.mp hc))
  exact exceeded.not_ge (keepsUp simulates required hs)

/-- An instance: padding raises the declared depth from one to three, and another instruction does
not lower it. -/
theorem declared_depth_keeps_up_sample : ∃ m₁ b₁ m₂ b₂,
    Sample.file.build.Leads ⟨0⟩ [3] m₁ ∧ m₁.body? ⟨0⟩ = some b₁ ∧ b₁.maxStack.toNat = 3 ∧
      (Edit.assignAt ⟨0⟩ 0 .nop).apply m₁ = (.ok (), m₂) ∧ m₂.body? ⟨0⟩ = some b₂ ∧
      b₁.maxStack ≤ b₂.maxStack ∧ ∀ name declared required,
        m₂.verifyBody ⟨0⟩ ≠ .error (.maxStackExceeded name declared required) := by
  have linked := Placement.linked_build Sample.checked Sample.numbered
  have hb := Sample.body?_build_zero
  obtain ⟨ids, m₁, padded⟩ := (Edit.exists_pad_iff (n := 2) hb Sample.verified_live
    (p := 5) (by decide)).mpr (by decide)
  have size := Edit.size_arena_of_pad hb Sample.verified_live (by decide) padded
  have room : m₁.arena.size ≤ Arena.capacity := by
    rw [size]
    decide
  obtain ⟨b₁, hb₁, new⟩ := Module.padded_of_fallsTo linked hb Sample.verified_live (by decide)
    (Edit.splice_of_pad padded) room Sample.fallsTo_last
  obtain ⟨c, hc, verified⟩ := Module.verifyBody_eq_ok.mp new.accepted
  obtain rfl : b₁ = c := Option.some.inj (hb₁.symm.trans hc)
  have run : Sample.file.build.Leads ⟨0⟩ [3] m₁ := by
    have run := Module.Leads.start.edit (.pad 5 2)
      (Edit.apply_discard_ok.mpr ⟨ids, padded⟩) room
    rwa [MethodEdit.found_of_simulate rfl verified.simulate] at run
  obtain ⟨c, hc, depth, next⟩ := declared_depth_keeps_up linked hb run
  obtain rfl : b₁ = c := Option.some.inj (hb₁.symm.trans hc)
  have first : b₁.code[0]? = some ⟨0⟩ := by
    rw [new.code]
    rfl
  have assigned := (Edit.apply_assignAt_ok (i := .nop)).mpr ⟨b₁, ⟨0⟩, hb₁, first,
    ⟨.of_none rfl rfl rfl, .of_none rfl rfl, List.forall_mem_nil _⟩, rfl⟩
  obtain ⟨b₂, hb₂, kept, keepsUp⟩ := next (.code (.assignAt 0 .nop)) _ assigned <| by
    rw [Module.arena_rebuilt, Arena.size_modifyAll]
    exact room
  exact ⟨m₁, b₁, _, b₂, run, hb₁, depth, assigned, hb₂, kept, (keepsUp rfl).2⟩

end Graft
