import Graft.Proofs.Contracts
import Graft.Proofs.Outcomes

/-!
# Growth

Whatever edits do, and whether they succeed or not, methods and slots are only added, and what
counts as touched stays touched. A bound on the numbers that holds after a run of edits therefore
held all along, so what an edit keeps may be asked under such a bound.
-/

namespace Graft

namespace Module

variable {m m' m'' : Module} {j k : MethodId} {b : LiveBody}

/-- The second module has the methods and slots of the first, and at least its touched methods. -/
structure Le (m m' : Module) : Prop where
  methods : m.methods.size ≤ m'.methods.size
  slots : m.arena.size ≤ m'.arena.size
  touched : ∀ k ∈ m.touched, k ∈ m'.touched

theorem Le.refl (m : Module) : m.Le m := ⟨le_rfl, le_rfl, fun _ => id⟩

theorem Le.trans (h : m.Le m') (h' : m'.Le m'') : m.Le m'' :=
  ⟨h.methods.trans h'.methods, h.slots.trans h'.slots, fun k hk => h'.touched k (h.touched k hk)⟩

theorem mem_insertId {ks : List MethodId} : j ∈ insertId k ks ↔ j = k ∨ j ∈ ks := by
  induction ks with
  | nil => simp [insertId]
  | cons i ks ih =>
    rw [insertId]
    split
    · exact List.mem_cons
    · split
      · rename_i same
        subst same
        simp
      · rw [List.mem_cons, ih, List.mem_cons]
        tauto

@[simp] theorem mem_touched_touch : j ∈ (m.touch k).touched ↔ j = k ∨ j ∈ m.touched := mem_insertId

theorem le_touch : m.Le (m.touch k) := ⟨le_rfl, le_rfl, fun _ hj => mem_touched_touch.mpr (.inr hj)⟩

theorem le_modifyMethod {f : Method LiveBody → Method LiveBody} : m.Le (m.modifyMethod k f) :=
  ⟨(size_methods_modifyMethod f).ge, le_rfl, fun _ => id⟩

theorem le_raiseMaxStack : m.Le (m.raiseMaxStack k) := by
  unfold raiseMaxStack
  split
  · exact le_modifyMethod
  · exact .refl m

end Module

namespace Contract

variable {N : Module → Prop} {R : Module → Module → Prop}

/-- Methods, slots and touched methods are added at most. -/
def growing : Contract := .always Module.Le

instance : growing.Idle := idle_always Module.Le.refl

instance : growing.Chains := chains_always Module.Le.trans

/-- Besides, the modules are related if the one after the edit is within a bound. -/
def bounded (N : Module → Prop) (R : Module → Module → Prop) : Contract :=
  .always fun m m' => m.Le m' ∧ (N m' → R m m')

theorem idle_bounded (refl : ∀ m, R m m) : (bounded N R).Idle :=
  idle_always fun m => ⟨.refl m, fun _ => refl m⟩

/-- What is within the bound in the end was so before. -/
theorem chains_bounded (back : ∀ {m m' : Module}, m.Le m' → N m' → N m)
    (trans : ∀ {m m₁ m₂}, R m m₁ → R m₁ m₂ → R m m₂) : (bounded N R).Chains := by
  refine chains_always fun first second => ⟨first.1.trans second.1, fun within => ?_⟩
  exact trans (first.2 (back second.1 within)) (second.2 within)

end Contract

namespace Edit

variable {α : Type} {N : Module → Prop} {R : Module → Module → Prop} {e : Edit α} {m m' : Module}

/-- The edit adds methods, slots and touched methods at most. -/
def Grows (e : Edit α) : Prop := e.Meets .growing

theorem Grows.le (he : e.Grows) (m : Module) : m.Le (e.apply m).2 := meetsAt_always.mp (he m)

theorem Grows.of_eq {r : Except Fault α} (he : e.Grows) (h : e.apply m = (r, m')) : m.Le m' := by
  have grown := he.le m
  rwa [h] at grown

theorem meetsAt_bounded : e.MeetsAt (.bounded N R) m ↔
    m.Le (e.apply m).2 ∧ (N (e.apply m).2 → R m (e.apply m).2) :=
  meetsAt_always

theorem meets_bounded : e.Meets (.bounded N R) ↔
    e.Grows ∧ ∀ m, N (e.apply m).2 → R m (e.apply m).2 := by
  constructor
  · intro meets
    exact ⟨fun m => meetsAt_always.mpr (meetsAt_bounded.mp (meets m)).1,
      fun m => (meetsAt_bounded.mp (meets m)).2⟩
  · rintro ⟨grows, related⟩ m
    exact meetsAt_bounded.mpr ⟨grows.le m, related m⟩

/-- What is asked of the module before the edit may be counted on. -/
theorem MeetsAt.of_premise {P : Module → Prop} {Q : Module → Module → Prop} (grows : e.Grows)
    (h : P m → e.MeetsAt (.bounded N fun m m' => P m → Q m m') m) :
    e.MeetsAt (.bounded N fun m m' => P m → Q m m') m :=
  meetsAt_bounded.mpr ⟨grows.le m, fun within hm => (meetsAt_bounded.mp (h hm)).2 within hm⟩

end Edit

end Graft
