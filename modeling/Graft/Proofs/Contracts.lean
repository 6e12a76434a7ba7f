import Graft.Proofs.Apply
import Graft.Proofs.Faults

/-!
# Contracts of edits

Most of what is proved of all edits has one shape. A contract relates the module before an edit to
the one after it: in one way if the edit succeeds, and in another, which may depend on the fault, if
it fails. That an edit only adds to a module, that it keeps an invariant, that it does nothing if it
fails and that it never fails for want of a name are contracts. An edit that is put together from
steps meets a contract by the rules here, whatever the contract is.

Two runs of one edit are compared in the same way, by a relation between their modules.
-/

namespace Graft

/-- What is asked of an edit. -/
structure Contract where
  /-- How the modules before and after it are related if it succeeds. -/
  done : Module → Module → Prop
  /-- How they are if it fails with the fault. -/
  failed : Fault → Module → Module → Prop

namespace Contract

/-- The modules are related whether the edit succeeds or fails. -/
def always (R : Module → Module → Prop) : Contract := ⟨R, fun _ => R⟩

/-- They are if it fails. -/
def onFailure (R : Fault → Module → Module → Prop) : Contract := ⟨fun _ _ => True, R⟩

/-- Whatever changes nothing meets the contract; it may fail, but not for want of a name. -/
class Idle (C : Contract) : Prop where
  done (m : Module) : C.done m m
  failed (fault : Fault) (hard : fault.isSoft = false) (m : Module) : C.failed fault m m

/-- What meets the contract step by step meets it as a whole. -/
class Chains (C : Contract) : Prop where
  done {m m₁ m₂ : Module} (first : C.done m m₁) (second : C.done m₁ m₂) : C.done m m₂
  failed {fault : Fault} {m m₁ m₂ : Module} (first : C.done m m₁)
    (second : C.failed fault m₁ m₂) : C.failed fault m m₂

variable {R : Module → Module → Prop}

theorem idle_always (refl : ∀ m, R m m) : (always R).Idle := ⟨refl, fun _ _ => refl⟩

theorem chains_always (trans : ∀ {m m₁ m₂}, R m m₁ → R m₁ m₂ → R m m₂) : (always R).Chains :=
  ⟨trans, trans⟩

end Contract

namespace Edit

variable {α β : Type} {C D : Contract} {m m' : Module} {k : MethodId}

/-- Run on this module, the edit meets the contract. -/
structure MeetsAt (C : Contract) (m : Module) (e : Edit α) : Prop where
  done : ∀ a m', e.apply m = (.ok a, m') → C.done m m'
  failed : ∀ fault m', e.apply m = (.error fault, m') → C.failed fault m m'

/-- The edit meets the contract. -/
def Meets (C : Contract) (e : Edit α) : Prop := ∀ m, e.MeetsAt C m

theorem meetsAt_always {R : Module → Module → Prop} {e : Edit α} :
    e.MeetsAt (.always R) m ↔ R m (e.apply m).2 := by
  constructor
  · intro meets
    cases ran : e.apply m with
    | mk answer m' =>
      cases answer with
      | ok a => exact meets.done a m' ran
      | error fault => exact meets.failed fault m' ran
  · intro related
    constructor
    · intro a m' ran
      rwa [ran] at related
    · intro fault m' ran
      rwa [ran] at related

namespace MeetsAt

theorem mono {e : Edit α} (he : e.MeetsAt C m) (done : ∀ m', C.done m m' → D.done m m')
    (failed : ∀ fault m', C.failed fault m m' → D.failed fault m m') : e.MeetsAt D m where
  done a m' ran := done m' (he.done a m' ran)
  failed fault m' ran := failed fault m' (he.failed fault m' ran)

/-- What follows may count on what the first edit gives. -/
theorem bind [C.Chains] {e : Edit α} {f : α → Edit β} (he : e.MeetsAt C m)
    (hf : ∀ a m₁, e.apply m = (.ok a, m₁) → (f a).MeetsAt C m₁) : (e >>= f).MeetsAt C m := by
  constructor
  · intro b m' ran
    obtain ⟨a, m₁, first, second⟩ := apply_bind_ok.mp ran
    exact Contract.Chains.done (he.done a m₁ first) ((hf a m₁ first).done b m' second)
  · intro fault m' ran
    rcases apply_bind_error.mp ran with first | ⟨a, m₁, first, second⟩
    · exact he.failed fault m' first
    · exact Contract.Chains.failed (he.done a m₁ first) ((hf a m₁ first).failed fault m' second)

/-- A question changes nothing, so what follows it must meet the contract by itself. -/
theorem check_bind {f : Module → Except Fault α} {g : α → Edit β}
    (refused : ∀ fault, f m = .error fault → C.failed fault m m)
    (hg : ∀ a, f m = .ok a → (g a).MeetsAt C m) : (check f >>= g).MeetsAt C m := by
  constructor
  · intro b m' ran
    obtain ⟨a, answer, rest⟩ := apply_check_bind_ok.mp ran
    exact (hg a answer).done b m' rest
  · intro fault m' ran
    rcases apply_check_bind_error.mp ran with ⟨answer, rfl⟩ | ⟨a, answer, rest⟩
    · exact refused fault answer
    · exact (hg a answer).failed fault m' rest

/-- What cannot fail may follow. -/
theorem bind_sure {R : Fault → Module → Module → Prop} {e : Edit α} {f : α → Edit β}
    (he : e.MeetsAt (.onFailure R) m) (sure : ∀ a m₁, e.apply m = (.ok a, m₁) →
      ∃ b m₂, (f a).apply m₁ = (.ok b, m₂)) : (e >>= f).MeetsAt (.onFailure R) m := by
  refine ⟨fun _ _ _ => trivial, fun fault m' ran => ?_⟩
  rcases apply_bind_error.mp ran with first | ⟨a, m₁, first, second⟩
  · exact he.failed fault m' first
  · obtain ⟨b, m₂, third⟩ := sure a m₁ first
    cases third.symm.trans second

theorem discard {e : Edit α} (he : e.MeetsAt C m) : (discard e : Edit Unit).MeetsAt C m := by
  constructor
  · intro _ m' ran
    obtain ⟨a, ran⟩ := apply_discard_ok.mp ran
    exact he.done a m' ran
  · intro fault m' ran
    exact he.failed fault m' (apply_discard_error.mp ran)

end MeetsAt

namespace Meets

theorem mono {e : Edit α} (he : e.Meets C) (done : ∀ m m', C.done m m' → D.done m m')
    (failed : ∀ fault m m', C.failed fault m m' → D.failed fault m m') : e.Meets D :=
  fun m => (he m).mono (done m) fun fault => failed fault m

theorem pure [C.Idle] (a : α) : (pure a : Edit α).Meets C := by
  intro m
  constructor
  · rintro _ _ ⟨⟩
    exact Contract.Idle.done m
  · nofun

theorem update {f : Module → Module} (h : ∀ m, C.done m (f m)) : (update f).Meets C := by
  intro m
  constructor
  · rintro _ _ ⟨⟩
    exact h m
  · nofun

theorem check [C.Idle] {f : Module → Except Fault α} (strict : ∀ m, Strict (f m)) :
    (check f).Meets C := by
  intro m
  constructor
  · intro a m' ran
    obtain rfl : m = m' := congrArg Prod.snd ran
    exact Contract.Idle.done m
  · intro fault m' ran
    obtain ⟨answer, rfl⟩ := Prod.mk.inj ran
    exact Contract.Idle.failed fault (strict m fault answer) m

theorem bind [C.Chains] {e : Edit α} {f : α → Edit β} (he : e.Meets C)
    (hf : ∀ a, (f a).Meets C) : (e >>= f).Meets C :=
  fun m => (he m).bind fun a m₁ _ => hf a m₁

/-- What follows a question may count on its answer. -/
theorem check_bind [C.Idle] {f : Module → Except Fault α} {g : α → Edit β}
    (strict : ∀ m, Strict (f m)) (hg : ∀ m a, f m = .ok a → (g a).MeetsAt C m) :
    (Edit.check f >>= g).Meets C :=
  fun m => .check_bind (fun fault answer => Contract.Idle.failed fault (strict m fault answer) m)
    (hg m)

theorem get_bind {g : Module → Edit α} (hg : ∀ m, (g m).Meets C) : (get >>= g).Meets C := by
  intro m
  constructor
  · intro a m' ran
    rw [apply_get_bind] at ran
    exact (hg m m).done a m' ran
  · intro fault m' ran
    rw [apply_get_bind] at ran
    exact (hg m m).failed fault m' ran

theorem discard {e : Edit α} (he : e.Meets C) : (discard e : Edit Unit).Meets C :=
  fun m => (he m).discard

end Meets

/-! ## Two runs of one edit -/

/-- Run on the second module, the edit gives the same answer as on the first, and the modules that
it leaves are related. -/
structure GoesAlong (S : Module → Module → Prop) (m m' : Module) (e : Edit α) : Prop where
  same : (e.apply m').1 = (e.apply m).1
  left : S (e.apply m).2 (e.apply m').2

namespace GoesAlong

variable {S : Module → Module → Prop}

theorem pure (related : S m m') (a : α) : (pure a : Edit α).GoesAlong S m m' := ⟨rfl, related⟩

theorem check {f : Module → Except Fault α} (same : f m' = f m) (related : S m m') :
    (check f).GoesAlong S m m' :=
  ⟨same, related⟩

theorem update {f : Module → Module} (related : S (f m) (f m')) :
    (update f).GoesAlong S m m' :=
  ⟨rfl, related⟩

theorem bind {e : Edit α} {f : α → Edit β} (he : e.GoesAlong S m m')
    (hf : ∀ a m₁ m₁', S m₁ m₁' → (f a).GoesAlong S m₁ m₁') : (e >>= f).GoesAlong S m m' := by
  obtain ⟨same, related⟩ := he
  rcases first : e.apply m with ⟨answer, m₁⟩
  rcases second : e.apply m' with ⟨answer', m₁'⟩
  rw [first, second] at same related
  obtain rfl : answer' = answer := same
  cases answer' with
  | error fault => constructor <;> rw [apply_bind, apply_bind, first, second]; exact related
  | ok a =>
    obtain ⟨same, related⟩ := hf a m₁ m₁' related
    constructor <;> rw [apply_bind, apply_bind, first, second]
    · exact same
    · exact related

/-- What follows a question may count on its answer. -/
theorem check_bind {f : Module → Except Fault α} {g : α → Edit β} (same : f m' = f m)
    (related : S m m') (hg : ∀ a, f m = .ok a → (g a).GoesAlong S m m') :
    (Edit.check f >>= g).GoesAlong S m m' := by
  cases answer : f m with
  | error fault =>
    constructor <;> rw [apply_check_bind, apply_check_bind, same, answer]
    exact related
  | ok a =>
    obtain ⟨same', related⟩ := hg a answer
    constructor <;> rw [apply_check_bind, apply_check_bind, same, answer]
    · exact same'
    · exact related

theorem get_bind {g : Module → Edit α} (same : g m' = g m) (hg : (g m).GoesAlong S m m') :
    (get >>= g).GoesAlong S m m' := by
  obtain ⟨same', related⟩ := hg
  constructor <;> rw [apply_get_bind, apply_get_bind, same]
  · exact same'
  · exact related

theorem discard {e : Edit α} (he : e.GoesAlong S m m') :
    (discard e : Edit Unit).GoesAlong S m m' := by
  obtain ⟨same, related⟩ := he
  constructor <;> rw [apply_discard, apply_discard]
  · rw [same]
  · exact related

end GoesAlong

end Edit

end Graft
