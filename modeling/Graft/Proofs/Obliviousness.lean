import Graft.Proofs.Strictness

/-!
# What counts as touched decides nothing

The edits note which bodies they touch, and no edit asks for it. Each of them succeeds or fails in
the same way whatever counts as touched before, and leaves the same module but for that note.
-/

namespace Graft.Edit

variable {α : Type} {e : Edit α} {m m' : Module}

/-- The edit goes the same way if nothing counts as touched before. -/
def Oblivious (e : Edit α) : Prop := ∀ m : Module,
  (e.apply m.clearTouched).1 = (e.apply m).1 ∧
    (e.apply m.clearTouched).2.clearTouched = (e.apply m).2.clearTouched

/-- It then goes the same way on all modules with the same content. -/
theorem oblivious_iff :
    e.Oblivious ↔ ∀ m m', m.SameContent m' → e.GoesAlong Module.SameContent m m' := by
  constructor
  · intro he m m' same
    obtain ⟨answer, left⟩ := he m
    obtain ⟨answer', left'⟩ := he m'
    have same : m.clearTouched = m'.clearTouched := same
    rw [same] at answer left
    exact ⟨answer'.symm.trans answer, left.symm.trans left'⟩
  · intro he m
    obtain ⟨answer, left⟩ := he m m.clearTouched rfl
    exact ⟨answer, left.symm⟩

/-- An edit that succeeds if nothing counts as touched succeeds in any case. -/
theorem Oblivious.apply_ok (he : e.Oblivious) {d : Module} {a : α}
    (ran : e.apply m.clearTouched = (.ok a, d)) :
    ∃ d', e.apply m = (.ok a, d') ∧ d'.clearTouched = d.clearTouched := by
  obtain ⟨value, left⟩ := he m
  rw [ran] at value left
  exact ⟨(e.apply m).2, Prod.ext value.symm rfl, left.symm⟩

theorem oblivious_operation (o : Plan.Operation) : (operation o).Oblivious :=
  oblivious_iff.mpr fun m _ same => (resolves_operation o m).goesAlong same

end Graft.Edit
