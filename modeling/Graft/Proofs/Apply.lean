import Graft.Edit.Basic

/-!
# Running edits

What each step of an edit gives and leaves behind, and how a run of several steps falls apart into
runs of the steps. All later proofs about edits take runs apart with these equations and look into
no other definition of the monad.
-/

namespace Graft.Edit

variable {α β : Type} {m m' : Module}

@[simp] theorem apply_pure (a : α) (m : Module) : (pure a : Edit α).apply m = (.ok a, m) := rfl

@[simp] theorem apply_check (f : Module → Except Fault α) (m : Module) :
    (check f).apply m = (f m, m) := rfl

@[simp] theorem apply_update (f : Module → Module) (m : Module) :
    (update f).apply m = (.ok (), f m) := rfl

@[simp] theorem apply_get (m : Module) : (get : Edit Module).apply m = (.ok m, m) := rfl

@[simp] theorem apply_set (fresh m : Module) :
    (set fresh : Edit PUnit).apply m = (.ok ⟨⟩, fresh) := rfl

@[simp] theorem apply_alloc (k : MethodId) (code : List (Instruction InsnId)) (m : Module) :
    (alloc k code).apply m =
      (.ok (m.arena.nextIds code.length), { m with arena := m.arena.append k code }) := rfl

@[simp] theorem apply_setBody (k : MethodId) (b : LiveBody) (m : Module) :
    (setBody k b).apply m = (.ok (), m.setBody k b) := rfl

@[simp] theorem apply_release (ids : List InsnId) (m : Module) :
    (release ids).apply m = (.ok (), { m with arena := m.arena.releaseAll ids }) := rfl

@[simp] theorem apply_modifyInstructions (ids : List InsnId)
    (f : Instruction InsnId → Instruction InsnId) (m : Module) :
    (modifyInstructions ids f).apply m = (.ok (), { m with arena := m.arena.modifyAll ids f }) :=
  rfl

@[simp] theorem apply_finish (k : MethodId) (m : Module) :
    (finish k).apply m = (.ok (), m.raiseMaxStack k) := rfl

theorem apply_bind (e : Edit α) (f : α → Edit β) (m : Module) :
    (e >>= f).apply m =
      match e.apply m with
      | (.ok a, m') => (f a).apply m'
      | (.error fault, m') => (.error fault, m') := by
  show ExceptT.bindCont f (e.apply m).1 (e.apply m).2 = _
  rcases e.apply m with ⟨_ | a, m'⟩ <;> rfl

@[simp] theorem apply_discard (e : Edit α) (m : Module) :
    (discard e).apply m = ((e.apply m).1.map fun _ => (), (e.apply m).2) := by
  show (e >>= fun _ => pure ()).apply m = _
  rw [apply_bind]
  rcases e.apply m with ⟨_ | a, m'⟩ <;> rfl

theorem apply_discard_ok {e : Edit α} :
    (discard e : Edit Unit).apply m = (.ok (), m') ↔ ∃ a, e.apply m = (.ok a, m') := by
  rw [apply_discard]
  rcases e.apply m with ⟨_ | a, m₁⟩ <;> simp [Except.map]

/-- What has been dropped is not there for what follows. -/
theorem discard_then (e : Edit α) (f : Unit → Edit β) :
    (discard e >>= f : Edit β) = e >>= fun _ => f () :=
  bind_assoc e (fun _ => pure ()) f

/-- Two steps succeed if the first does and then the second does. -/
theorem apply_bind_ok {e : Edit α} {f : α → Edit β} {b : β} :
    (e >>= f).apply m = (.ok b, m') ↔
      ∃ a m₁, e.apply m = (.ok a, m₁) ∧ (f a).apply m₁ = (.ok b, m') := by
  rw [apply_bind]
  rcases e.apply m with ⟨_ | a, m₁⟩
  · simp
  · constructor
    · intro h
      exact ⟨a, m₁, rfl, h⟩
    · rintro ⟨_, _, h, hf⟩
      cases h
      exact hf

/-- Two steps fail if the first does, or if it succeeds and the second fails after it. -/
theorem apply_bind_error {e : Edit α} {f : α → Edit β} {fault : Fault} :
    (e >>= f).apply m = (.error fault, m') ↔ e.apply m = (.error fault, m') ∨
      ∃ a m₁, e.apply m = (.ok a, m₁) ∧ (f a).apply m₁ = (.error fault, m') := by
  rw [apply_bind]
  rcases e.apply m with ⟨refused | a, m₁⟩
  · simp
  · constructor
    · intro h
      exact .inr ⟨a, m₁, rfl, h⟩
    · rintro (h | ⟨a', m₁', h, hf⟩)
      · cases h
      · cases h
        exact hf

theorem apply_discard_error {e : Edit α} {fault : Fault} :
    (discard e : Edit Unit).apply m = (.error fault, m') ↔ e.apply m = (.error fault, m') := by
  rw [apply_discard]
  rcases e.apply m with ⟨_ | a, m₁⟩ <;> simp [Except.map]

/-! ## A step and what follows it -/

/-- A check that is followed by more. -/
theorem apply_check_bind (f : Module → Except Fault α) (g : α → Edit β) (m : Module) :
    (check f >>= g).apply m =
      match f m with
      | .ok a => (g a).apply m
      | .error fault => (.error fault, m) := by
  rw [apply_bind, apply_check]
  cases f m <;> rfl

theorem apply_check_bind_ok {f : Module → Except Fault α} {g : α → Edit β} {b : β} :
    (check f >>= g).apply m = (.ok b, m') ↔ ∃ a, f m = .ok a ∧ (g a).apply m = (.ok b, m') := by
  rw [apply_check_bind]
  cases f m <;> simp

theorem apply_check_bind_error {f : Module → Except Fault α} {g : α → Edit β} {fault : Fault} :
    (check f >>= g).apply m = (.error fault, m') ↔ (f m = .error fault ∧ m' = m) ∨
      ∃ a, f m = .ok a ∧ (g a).apply m = (.error fault, m') := by
  rw [apply_check_bind]
  cases f m <;> simp [eq_comm]

/-- A check that gives no value. -/
theorem apply_require_bind_ok {f : Module → Except Fault Unit} {g : Unit → Edit β} {b : β} :
    (check f >>= g).apply m = (.ok b, m') ↔ f m = .ok () ∧ (g ()).apply m = (.ok b, m') := by
  rw [apply_check_bind]
  cases f m <;> simp

theorem apply_get_bind (g : Module → Edit β) (m : Module) :
    ((get : Edit Module) >>= g).apply m = (g m).apply m := by
  rw [apply_bind, apply_get]

/-- A change that is followed by more. -/
theorem apply_update_bind (f : Module → Module) (g : Unit → Edit β) (m : Module) :
    (update f >>= g).apply m = (g ()).apply (f m) := by
  rw [apply_bind, apply_update]

theorem apply_alloc_bind (k : MethodId) (code : List (Instruction InsnId))
    (g : List InsnId → Edit β) (m : Module) :
    (alloc k code >>= g).apply m =
      (g (m.arena.nextIds code.length)).apply { m with arena := m.arena.append k code } := by
  rw [apply_bind, apply_alloc]

theorem apply_setBody_bind (k : MethodId) (b : LiveBody) (g : Unit → Edit β) (m : Module) :
    (setBody k b >>= g).apply m = (g ()).apply (m.setBody k b) := by
  rw [apply_bind, apply_setBody]

theorem apply_release_bind (ids : List InsnId) (g : Unit → Edit β) (m : Module) :
    (release ids >>= g).apply m =
      (g ()).apply { m with arena := m.arena.releaseAll ids } := by
  rw [apply_bind, apply_release]

theorem apply_modifyInstructions_bind (ids : List InsnId)
    (f : Instruction InsnId → Instruction InsnId) (g : Unit → Edit β) (m : Module) :
    (modifyInstructions ids f >>= g).apply m =
      (g ()).apply { m with arena := m.arena.modifyAll ids f } := by
  rw [apply_bind, apply_modifyInstructions]

theorem apply_finish_bind (k : MethodId) (g : Unit → Edit β) (m : Module) :
    (finish k >>= g).apply m = (g ()).apply (m.raiseMaxStack k) := by
  rw [apply_bind, apply_finish]

/-- An edit of a body. -/
theorem apply_start_bind (k : MethodId) (g : LiveBody → Edit β) (m : Module) :
    (start k >>= g).apply m =
      match m.body? k with
      | some b => (g b).apply (m.touch k)
      | none => (.error (.noBody (m.methodName k)), m) := by
  rw [start, apply_bind, apply_check_bind, Module.body]
  cases m.body? k <;> rfl

theorem apply_start_bind_ok {k : MethodId} {g : LiveBody → Edit β} {a : β} :
    (start k >>= g).apply m = (.ok a, m') ↔
      ∃ b, m.body? k = some b ∧ (g b).apply (m.touch k) = (.ok a, m') := by
  rw [apply_start_bind]
  cases m.body? k <;> simp

theorem apply_start_bind_error {k : MethodId} {g : LiveBody → Edit α} {fault : Fault} :
    (start k >>= g).apply m = (.error fault, m') ↔
      (m.body? k = none ∧ fault = .noBody (m.methodName k) ∧ m' = m) ∨
        ∃ b, m.body? k = some b ∧ (g b).apply (m.touch k) = (.error fault, m') := by
  rw [apply_start_bind]
  cases m.body? k <;> simp [eq_comm]

end Graft.Edit
