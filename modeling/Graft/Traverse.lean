import Graft.ExceptionRange
import Graft.Instruction

/-!
# Going through a list with a function that may fail

`List.mapM` over `Except` stops at the first failure. If there is none, each element of the result
comes from the element in its place, and the lengths agree. The same holds of the labels of an
instruction and of the markers of an exception range.
-/

namespace Graft

variable {α β ε : Type}

/-- A step that may fail and what follows it give a value together if both do. -/
theorem bind_eq_ok {x : Except ε α} {f : α → Except ε β} {b : β} :
    x >>= f = .ok b ↔ ∃ a, x = .ok a ∧ f a = .ok b := by
  cases x <;> simp [bind, Except.bind]

/-- So do steps that take something off the front of an input. -/
theorem bind_run_eq_ok {σ : Type} {x : StateT σ (Except ε) α} {f : α → StateT σ (Except ε) β}
    {input rest : σ} {b : β} :
    (x >>= f) input = .ok (b, rest) ↔
      ∃ a left, x input = .ok (a, left) ∧ f a left = .ok (b, rest) := by
  show (x input >>= fun p => f p.1 p.2) = .ok (b, rest) ↔ _
  simp only [bind_eq_ok, Prod.exists]

/-- A check that refuses comes before the rest. -/
theorem refuse_eq_ok {refused : Prop} [Decidable refused] {fault : ε} {rest : Except ε α} {a : α} :
    (if refused then throw fault >>= fun _ : Unit => rest else rest) = .ok a ↔
      ¬refused ∧ rest = .ok a := by
  split
  · exact iff_of_false nofun fun h => h.1 ‹refused›
  · exact (and_iff_right ‹¬refused›).symm

/-- One step of going through a list. -/
theorem mapM_cons_eq_ok {f : α → Except ε β} {a : α} {as : List α} {bs : List β} :
    (a :: as).mapM f = .ok bs ↔ ∃ b bs', f a = .ok b ∧ as.mapM f = .ok bs' ∧ bs = b :: bs' := by
  rw [List.mapM_cons]
  cases ha : f a with
  | error e => simp [bind, Except.bind]
  | ok b =>
    cases has : as.mapM f with
    | error e => simp [bind, Except.bind]
    | ok bs' => simp [bind, Except.bind, pure, Except.pure, eq_comm]

/-- The result is as long as the list. -/
theorem length_of_mapM_eq_ok {f : α → Except ε β} {as : List α} {bs : List β}
    (h : as.mapM f = .ok bs) : bs.length = as.length := by
  induction as generalizing bs with
  | nil =>
    rw [List.mapM_nil] at h
    cases h
    rfl
  | cons a as ih =>
    obtain ⟨b, bs', _, hrest, rfl⟩ := mapM_cons_eq_ok.mp h
    simp [ih hrest]

/-- Each element of the result comes from an element of the list. -/
theorem exists_of_mem_mapM {f : α → Except ε β} {as : List α} {bs : List β}
    (h : as.mapM f = .ok bs) {b : β} (hb : b ∈ bs) : ∃ a ∈ as, f a = .ok b := by
  induction as generalizing bs with
  | nil =>
    rw [List.mapM_nil] at h
    cases h
    simp at hb
  | cons a as ih =>
    obtain ⟨c, bs', hc, hrest, rfl⟩ := mapM_cons_eq_ok.mp h
    rcases List.mem_cons.mp hb with rfl | hb
    · exact ⟨a, List.mem_cons_self, hc⟩
    · obtain ⟨x, hx, hfx⟩ := ih hrest hb
      exact ⟨x, List.mem_cons_of_mem _ hx, hfx⟩

namespace Instruction

variable {L L' : Type}

/-- Changing the labels of an instruction changes its jump targets one by one. -/
theorem targets_mapLabelsM {f : L → Except ε L'} {i : Instruction L} {j : Instruction L'}
    (h : i.mapLabelsM f = .ok j) : i.targets.mapM f = .ok j.targets := by
  cases i
  case br target | brIf _ target | brCmp _ target | leave target =>
    cases ht : f target <;>
      simp_all [mapLabelsM, Except.map, targets, bind, Except.bind, pure, Except.pure]
    subst h
    rfl
  case switch labels =>
    cases ht : labels.mapM f <;> simp_all [mapLabelsM, Except.map, targets]
    subst h
    rfl
  all_goals
    simp [mapLabelsM] at h
    subst h
    rfl

end Instruction

namespace ExceptionRange

variable {L L' : Type}

/-- Changing the markers of a range changes each by itself. -/
theorem mapLabelsM_eq_ok {f : L → Except ε L'} {r : ExceptionRange L} {s : ExceptionRange L'}
    (h : r.mapLabelsM f = .ok s) :
    r.kind.mapLabelsM f = .ok s.kind ∧ f r.tryStart = .ok s.tryStart ∧ f r.tryEnd = .ok s.tryEnd ∧
      f r.handlerStart = .ok s.handlerStart ∧ f r.handlerEnd = .ok s.handlerEnd := by
  obtain ⟨kind, hkind, h⟩ := bind_eq_ok.mp h
  obtain ⟨tryStart, hts, h⟩ := bind_eq_ok.mp h
  obtain ⟨tryEnd, hte, h⟩ := bind_eq_ok.mp h
  obtain ⟨handlerStart, hhs, h⟩ := bind_eq_ok.mp h
  obtain ⟨handlerEnd, hhe, h⟩ := bind_eq_ok.mp h
  cases h
  exact ⟨hkind, hts, hte, hhs, hhe⟩

/-- Each marker of a range with changed labels comes from a marker of the range. -/
theorem exists_of_mem_markers_mapLabelsM {f : L → Except ε L'} {r : ExceptionRange L}
    {s : ExceptionRange L'} (h : r.mapLabelsM f = .ok s) {l : L'} (hl : l ∈ s.markers) :
    ∃ x ∈ r.markers, f x = .ok l := by
  obtain ⟨hkind, hts, hte, hhs, hhe⟩ := mapLabelsM_eq_ok h
  simp only [markers, List.cons_append, List.nil_append, List.mem_cons] at hl ⊢
  rcases hl with rfl | rfl | rfl | rfl | hl
  · exact ⟨_, .inl rfl, hts⟩
  · exact ⟨_, .inr (.inl rfl), hte⟩
  · exact ⟨_, .inr (.inr (.inl rfl)), hhs⟩
  · exact ⟨_, .inr (.inr (.inr (.inl rfl))), hhe⟩
  · cases hs : s.kind with
    | filter start' =>
      cases hr : r.kind with
      | filter start =>
        rw [hr, hs] at hkind
        cases hf : f start with
        | error e => simp [HandlerKind.mapLabelsM, hf, Except.map] at hkind
        | ok l' =>
          simp only [HandlerKind.mapLabelsM, hf, Except.map, Except.ok.injEq,
            HandlerKind.filter.injEq] at hkind
          simp only [hs, HandlerKind.labels, List.mem_singleton] at hl
          subst hkind hl
          exact ⟨start, by simp [HandlerKind.labels], hf⟩
      | _ => simp [hr, hs, HandlerKind.mapLabelsM] at hkind
    | _ => simp [hs, HandlerKind.labels] at hl

end ExceptionRange

end Graft
