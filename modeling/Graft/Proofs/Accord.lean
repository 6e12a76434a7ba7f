import Graft.Proofs.Strictness
import Graft.Proofs.Twins

/-!
# Edits that agree

A batch tells two answers apart by their values, and by the names that its report says were missing;
any other fault ends it, whatever it is. Edits of two modules agree if a batch cannot tell their
answers apart, and if the modules are twins afterwards where they succeed. How edits are put
together from steps is a matter of the rules here; they do not look into the steps.
-/

namespace Graft

variable {α β : Type}

/-! ## Answers -/

/-- Answers that a batch cannot tell apart. -/
inductive Accord : Except Fault α → Except Fault α → Prop where
  | same (x : Except Fault α) : Accord x x
  /-- Faults that end the batch. -/
  | ending {fault fault' : Fault} (h : fault.isSoft = false) (h' : fault'.isSoft = false) :
    Accord (.error fault) (.error fault')

namespace Accord

variable {x x' : Except Fault α}

theorem of_eq (h : x' = x) : Accord x x' := h ▸ .same x

theorem symm (h : Accord x x') : Accord x' x := by
  cases h with
  | same => exact .same x
  | ending hard hard' => exact .ending hard' hard

/-- If no name is looked up, it is enough that the values are the same. -/
theorem of_strict (hx : Strict x) (hx' : Strict x') (same : ∀ a, x' = .ok a ↔ x = .ok a) :
    Accord x x' := by
  cases x with
  | ok a => exact .of_eq ((same a).mpr rfl)
  | error fault =>
    cases x' with
    | ok a => cases (same a).mp rfl
    | error fault' => exact .ending (hx fault rfl) (hx' fault' rfl)

theorem eq_ok (h : Accord x x') {a : α} : x' = .ok a ↔ x = .ok a := by
  cases h with
  | same => exact Iff.rfl
  | ending => exact iff_of_false nofun nofun

end Accord

namespace Edit

open Graft.Module

variable {m m' : Module} {k : MethodId}

/-! ## Edits -/

/-- The answers cannot be told apart, and if there is a value, then the modules are twins. -/
structure Matches (o o' : Except Fault α × Module) : Prop where
  accord : Accord o.1 o'.1
  twin : ∀ a, o.1 = .ok a → Twin o.2 o'.2

/-- The edits, one of each module, match if there are handles for all slots. -/
def Agree (m m' : Module) (e e' : Edit α) : Prop :=
  (e.apply m).2.arena.size ≤ Arena.capacity → Matches (e.apply m) (e'.apply m')

namespace Agree

theorem of_eq {o o' : Except Fault α × Module} {e e' : Edit α} (h : Agree m m' e e')
    (left : e.apply m = o) (right : e'.apply m' = o') (room : o.2.arena.size ≤ Arena.capacity) :
    Matches o o' := by
  rw [← left] at room ⊢
  rw [← right]
  exact h room

/-! ## Steps -/

theorem pure (h : Twin m m') (a : α) : Agree m m' (pure a) (pure a) := fun _ =>
  ⟨.same _, fun _ _ => h⟩

theorem check {f f' : Module → Except Fault α} (h : Twin m m') (accord : Accord (f m) (f' m')) :
    Agree m m' (check f) (check f') := fun _ => ⟨accord, fun _ _ => h⟩

theorem update {f f' : Module → Module} (h : (f m).arena.size ≤ Arena.capacity →
    Twin (f m) (f' m')) : Agree m m' (update f) (update f') := fun room =>
  ⟨.same _, fun _ _ => h room⟩

/-- An edit that looks up no name. -/
theorem of_strict {e e' : Edit α} (strict : e.Strict) (strict' : e'.Strict)
    (done : ∀ a m₁, e.apply m = (.ok a, m₁) → m₁.arena.size ≤ Arena.capacity →
      ∃ m₁', e'.apply m' = (.ok a, m₁') ∧ Twin m₁ m₁')
    (back : ∀ a m₁', e'.apply m' = (.ok a, m₁') → ∃ a m₁, e.apply m = (.ok a, m₁)) :
    Agree m m' e e' := by
  intro room
  rcases h : e.apply m with ⟨fault | a, m₁⟩ <;> rw [h] at room
  · rcases h' : e'.apply m' with ⟨fault' | a', m₁'⟩
    -- the faults may differ, since both end the batch
    · have hard := (strict m).failed fault m₁ h
      have hard' := (strict' m').failed fault' m₁' h'
      exact ⟨.ending hard hard', nofun⟩
    · obtain ⟨a, m₁, ok⟩ := back a' m₁' h'
      cases h.symm.trans ok
  · obtain ⟨m₁', ok, twin⟩ := done a m₁ h room
    rw [ok]
    exact ⟨.same _, fun _ _ => twin⟩

/-! ## Sequences -/

/-- One edit after the other. -/
theorem bind {e e' : Edit α} {f f' : α → Edit β} (he : Agree m m' e e')
    (grows : ∀ a, (f a).Grows)
    (hf : ∀ a m₁ m₁', e.apply m = (.ok a, m₁) → Twin m₁ m₁' → Agree m₁ m₁' (f a) (f' a)) :
    Agree m m' (e >>= f) (e' >>= f') := by
  intro room
  simp only [apply_bind] at room ⊢
  -- that one of the edits fails and the other does not, as in two of the four cases, cannot be
  rcases h : e.apply m with ⟨fault | a, m₁⟩ <;> rcases h' : e'.apply m' with ⟨fault' | a', m₁'⟩ <;>
    rw [h] at room
  · have matched := he.of_eq h h' room
    exact ⟨by cases matched.accord <;> constructor <;> assumption, nofun⟩
  · cases (he.of_eq h h' room).accord
  · have earlier := ((grows a).le m₁).slots.trans room
    cases (he.of_eq h h' earlier).accord
  · have earlier := ((grows a).le m₁).slots.trans room
    have matched := he.of_eq h h' earlier
    obtain rfl : a = a' := Except.ok.inj (matched.accord.eq_ok.mpr rfl).symm
    exact hf a m₁ m₁' h (matched.twin a rfl) room

/-- A check before an edit. -/
theorem check_bind {f f' : Module → Except Fault α} {g g' : α → Edit β}
    (accord : Accord (f m) (f' m')) (hg : ∀ a, f m = .ok a → Agree m m' (g a) (g' a)) :
    Agree m m' (Edit.check f >>= g) (Edit.check f' >>= g') := by
  intro room
  simp only [apply_check_bind] at room ⊢
  generalize hx : f m = x at room accord ⊢
  generalize f' m' = x' at accord ⊢
  cases accord with
  | same =>
    cases x with
    | ok a => exact hg a hx room
    | error fault => exact ⟨.same _, nofun⟩
  | ending h h' => exact ⟨.ending h h', nofun⟩

theorem get_bind {f f' : Module → Edit α} (h : Agree m m' (f m) (f' m')) :
    Agree m m' (get >>= f) (get >>= f') := by
  intro room
  rw [apply_get_bind] at room
  rw [apply_get_bind, apply_get_bind]
  exact h room

/-- Edits of a body begin in the same way. -/
theorem start_bind {g g' : LiveBody → Edit α} (h : Twin m m')
    (hg : ∀ b b', Alike k (m.touch k) (m'.touch k) b b' →
      Agree (m.touch k) (m'.touch k) (g b) (g' b')) :
    Agree m m' (start k >>= g) (start k >>= g') := by
  intro room
  simp only [apply_start_bind] at room ⊢
  rcases h.body_cases (k := k) with ⟨none, none'⟩ | ⟨b, b', alike⟩
  · rw [none, none', h.methodName]
    exact ⟨.same _, nofun⟩
  · rw [alike.body] at room ⊢
    rw [alike.body']
    exact hg b b' (h.touch.alike alike.body alike.body') room

/-- A body must be there; what is in it does not matter. -/
theorem body_bind {g g' : Unit → Edit α} (h : Twin m m') (hg : Agree m m' (g ()) (g' ())) :
    Agree m m' (Functor.discard (Edit.check (·.body k)) >>= g)
      (Functor.discard (Edit.check (·.body k)) >>= g') := by
  intro room
  simp only [apply_bind, apply_discard, apply_check, body] at room ⊢
  rcases h.body_cases (k := k) with ⟨none, none'⟩ | ⟨b, b', alike⟩
  · rw [none, none', h.methodName]
    refine ⟨.same _, fun a ok => ?_⟩
    cases ok
  · rw [alike.body] at room ⊢
    rw [alike.body']
    exact hg room

end Agree

/-- What an edit gives may be dropped at its end. -/
theorem discard_bind (e : Edit α) (f : α → Edit β) :
    (discard (e >>= f) : Edit Unit) = e >>= fun a => discard (f a) :=
  bind_assoc e f fun _ => pure ()

end Edit

end Graft
