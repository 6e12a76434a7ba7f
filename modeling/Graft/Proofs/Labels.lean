import Graft.Traverse

/-!
# Changing labels

Instructions and exception ranges refer to instructions by labels, and every kind of place has
labels of its own: positions in files and fragments, handles in bodies. What does not mention a
label is the same whatever the labels are, and two ways to change labels agree on an instruction or
a range if they agree on the labels that it mentions.
-/

namespace Graft

variable {L L' L'' ε : Type}

theorem map_eq_ok {α β : Type} {x : Except ε α} {f : α → β} {b : β} :
    x.map f = .ok b ↔ ∃ a, x = .ok a ∧ f a = b := by
  cases x <;> simp [Except.map]

theorem toOption_eq_some {α : Type} {x : Except ε α} {a : α} :
    x.toOption = some a ↔ x = .ok a := by
  cases x <;> simp [Except.toOption]

/-- A list whose elements all have counterparts has a counterpart. -/
theorem mapM_eq_ok_map {α β : Type} {f : α → Except ε β} {g : α → β} {as : List α}
    (h : ∀ a ∈ as, f a = .ok (g a)) : as.mapM f = .ok (as.map g) := by
  induction as with
  | nil => rfl
  | cons a as ih =>
    exact mapM_cons_eq_ok.mpr ⟨g a, as.map g, h a List.mem_cons_self,
      ih fun b hb => h b (List.mem_cons_of_mem _ hb), rfl⟩

/-- The same if the counterpart is looked for by place, but does not depend on it. -/
theorem mapM_zipIdx_eq_ok_map {α β : Type} {f : α × Nat → Except ε β} {g : α → β} {as : List α}
    (h : ∀ p, ∀ a ∈ as, f (a, p) = .ok (g a)) : as.zipIdx.mapM f = .ok (as.map g) := by
  have pairs : as.zipIdx.mapM f = .ok (as.zipIdx.map (g ∘ Prod.fst)) :=
    mapM_eq_ok_map fun pair hp => h pair.2 pair.1 (List.fst_mem_of_mem_zipIdx hp)
  rw [pairs, ← List.map_map, List.zipIdx_map_fst]

/-- The counterpart of an element stands in its place. -/
theorem exists_getElem?_of_mapM {α β : Type} {f : α → Except ε β} {as : List α} {bs : List β}
    (h : as.mapM f = .ok bs) {p : Nat} {a : α} (ha : as[p]? = some a) :
    ∃ b, bs[p]? = some b ∧ f a = .ok b := by
  induction as generalizing bs p with
  | nil => simp at ha
  | cons x xs ih =>
    obtain ⟨y, ys, hy, hys, rfl⟩ := mapM_cons_eq_ok.mp h
    cases p with
    | zero =>
      obtain rfl : x = a := by simpa using ha
      exact ⟨y, by simp, hy⟩
    | succ p =>
      obtain ⟨b, hb, hf⟩ := ih hys (by simpa using ha)
      exact ⟨b, by simpa using hb, hf⟩

/-- What each counterpart has in common with its element. -/
theorem map_eq_of_mapM {α β γ : Type} {f : α → Except ε β} {g : β → γ} {h : α → γ}
    (same : ∀ a b, f a = .ok b → g b = h a) {as : List α} {bs : List β}
    (hm : as.mapM f = .ok bs) : bs.map g = as.map h := by
  induction as generalizing bs with
  | nil =>
    cases hm
    rfl
  | cons a as ih =>
    obtain ⟨b, bs', hb, hbs, rfl⟩ := mapM_cons_eq_ok.mp hm
    rw [List.map_cons, List.map_cons, same a b hb, ih hbs]

/-! ## Instructions -/

namespace Instruction

@[simp] theorem loc?_mapLabels (f : L → L') (i : Instruction L) :
    (i.mapLabels f).loc? = i.loc? := by
  cases i <;> rfl

@[simp] theorem arg?_mapLabels (f : L → L') (i : Instruction L) :
    (i.mapLabels f).arg? = i.arg? := by
  cases i <;> rfl

@[simp] theorem field?_mapLabels (f : L → L') (i : Instruction L) :
    (i.mapLabels f).field? = i.field? := by
  cases i <;> rfl

@[simp] theorem method?_mapLabels (f : L → L') (i : Instruction L) :
    (i.mapLabels f).method? = i.method? := by
  cases i <;> rfl

@[simp] theorem type?_mapLabels (f : L → L') (i : Instruction L) :
    (i.mapLabels f).type? = i.type? := by
  cases i <;> rfl

@[simp] theorem isBranch_mapLabels (f : L → L') (i : Instruction L) :
    (i.mapLabels f).isBranch = i.isBranch := by
  cases i <;> rfl

@[simp] theorem emptiesStack_mapLabels (f : L → L') (i : Instruction L) :
    (i.mapLabels f).emptiesStack = i.emptiesStack := by
  cases i <;> rfl

@[simp] theorem mapLabels_mapLabels (f : L → L') (g : L' → L'') (i : Instruction L) :
    (i.mapLabels f).mapLabels g = i.mapLabels (g ∘ f) := by
  cases i <;> simp [mapLabels]

theorem mapLabels_congr {f g : L → L'} {i : Instruction L} (h : ∀ l ∈ i.targets, f l = g l) :
    i.mapLabels f = i.mapLabels g := by
  cases i <;> simp_all [mapLabels, targets]

theorem mapLabels_eq_self {f : L → L} {i : Instruction L} (h : ∀ l ∈ i.targets, f l = l) :
    i.mapLabels f = i :=
  (mapLabels_congr h).trans (mapLabels_id i)

/-- Every label has a counterpart, so the instruction has one. -/
theorem mapLabelsM_eq_ok {f : L → Except ε L'} {g : L → L'} {i : Instruction L}
    (h : ∀ l ∈ i.targets, f l = .ok (g l)) : i.mapLabelsM f = .ok (i.mapLabels g) := by
  cases i
  case br target | brIf _ target | brCmp _ target | leave target =>
    rw [mapLabelsM, h target List.mem_cons_self]
    rfl
  case switch labels =>
    rw [mapLabelsM, show labels.mapM f = .ok (labels.map g) from mapM_eq_ok_map h]
    rfl
  all_goals rfl

end Instruction

/-! ## Exception ranges -/

namespace ExceptionRange

/-- What holds of every marker holds of those that every range has, and of the start of its filter
if it has one. -/
theorem forall_mem_markers {P : L → Prop} {r : ExceptionRange L} :
    (∀ l ∈ r.markers, P l) ↔
      P r.tryStart ∧ P r.tryEnd ∧ P r.handlerStart ∧ P r.handlerEnd ∧ ∀ l ∈ r.kind.labels, P l := by
  simp [markers]

@[simp] theorem mapLabels_mapLabels (f : L → L') (g : L' → L'') (r : ExceptionRange L) :
    (r.mapLabels f).mapLabels g = r.mapLabels (g ∘ f) := by
  obtain ⟨kind, _, _, _, _⟩ := r
  cases kind <;> rfl

@[simp] theorem mapLabels_id (r : ExceptionRange L) : r.mapLabels id = r := by
  obtain ⟨kind, _, _, _, _⟩ := r
  cases kind <;> rfl

theorem mapLabels_congr {f g : L → L'} {r : ExceptionRange L} (h : ∀ l ∈ r.markers, f l = g l) :
    r.mapLabels f = r.mapLabels g := by
  obtain ⟨kind, tryStart, tryEnd, handlerStart, handlerEnd⟩ := r
  obtain ⟨hts, hte, hhs, hhe, hkind⟩ := forall_mem_markers.mp h
  simp only at hts hte hhs hhe hkind
  have : kind.mapLabels f = kind.mapLabels g := by
    cases kind with
    | filter start => exact congrArg HandlerKind.filter (hkind start List.mem_cons_self)
    | _ => rfl
  simp only [mapLabels, this, hts, hte, hhs, hhe]

theorem mapLabels_eq_self {f : L → L} {r : ExceptionRange L} (h : ∀ l ∈ r.markers, f l = l) :
    r.mapLabels f = r :=
  (mapLabels_congr h).trans (mapLabels_id r)

/-- Every marker has a counterpart, so the range has one. -/
theorem mapLabelsM_of_markers {f : L → Except ε L'} {g : L → L'} {r : ExceptionRange L}
    (h : ∀ l ∈ r.markers, f l = .ok (g l)) : r.mapLabelsM f = .ok (r.mapLabels g) := by
  obtain ⟨kind, tryStart, tryEnd, handlerStart, handlerEnd⟩ := r
  obtain ⟨hts, hte, hhs, hhe, hkind⟩ := forall_mem_markers.mp h
  have : kind.mapLabelsM f = .ok (kind.mapLabels g) := by
    cases kind with
    | filter start =>
      rw [HandlerKind.mapLabelsM, hkind start List.mem_cons_self]
      rfl
    | _ => rfl
  simp only at hts hte hhs hhe
  simp only [mapLabelsM, this, hts, hte, hhs, hhe]
  rfl

/-- If the range has a counterpart, each of its markers does. -/
theorem exists_of_mapLabelsM {f : L → Except ε L'} {r : ExceptionRange L} {s : ExceptionRange L'}
    (h : r.mapLabelsM f = .ok s) : ∀ l ∈ r.markers, ∃ x, f l = .ok x := by
  obtain ⟨hkind, hts, hte, hhs, hhe⟩ := mapLabelsM_eq_ok h
  refine forall_mem_markers.mpr ⟨⟨_, hts⟩, ⟨_, hte⟩, ⟨_, hhs⟩, ⟨_, hhe⟩, fun l hl => ?_⟩
  cases hk : r.kind with
  | filter start =>
    rw [hk] at hkind hl
    obtain rfl := List.mem_singleton.mp hl
    cases hf : f l with
    | ok x => exact ⟨x, rfl⟩
    | error e => simp [HandlerKind.mapLabelsM, hf, Except.map] at hkind
  | _ => simp [hk, HandlerKind.labels] at hl

@[simp] theorem caught?_mapLabels (f : L → L') (r : ExceptionRange L) :
    (r.mapLabels f).caught? = r.caught? := by
  obtain ⟨kind, _, _, _, _⟩ := r
  cases kind <;> rfl

theorem caught?_of_mapLabelsM {f : L → Except ε L'} {r : ExceptionRange L} {s : ExceptionRange L'}
    (h : r.mapLabelsM f = .ok s) : s.caught? = r.caught? := by
  have same := (mapLabelsM_eq_ok h).1
  obtain ⟨kind, _, _, _, _⟩ := r
  obtain ⟨kind', _, _, _, _⟩ := s
  cases kind with
  | filter start =>
    obtain ⟨l, -, rfl⟩ := map_eq_ok.mp same
    rfl
  | _ =>
    cases same
    rfl

@[simp] theorem entryPoints_mapLabels (f : L → L') (r : ExceptionRange L) :
    (r.mapLabels f).entryPoints = r.entryPoints.map fun (l, depth) => (f l, depth) := by
  obtain ⟨kind, _, _, _, _⟩ := r
  cases kind <;> rfl

/-- Control enters a range at markers only. -/
theorem mem_markers_of_mem_entryPoints {r : ExceptionRange L} {entry : L × Nat}
    (h : entry ∈ r.entryPoints) : entry.1 ∈ r.markers := by
  obtain ⟨kind, tryStart, tryEnd, handlerStart, handlerEnd⟩ := r
  cases kind with
  | filter start =>
    simp only [entryPoints, List.mem_cons, List.not_mem_nil, or_false] at h
    rcases h with rfl | rfl <;> simp [markers, HandlerKind.labels]
  | _ =>
    simp only [entryPoints, List.mem_cons, List.not_mem_nil, or_false] at h
    subst h
    simp [markers]

theorem tryStart_mem_markers (r : ExceptionRange L) : r.tryStart ∈ r.markers := by simp [markers]

theorem tryEnd_mem_markers (r : ExceptionRange L) : r.tryEnd ∈ r.markers := by simp [markers]

theorem handlerStart_mem_markers (r : ExceptionRange L) : r.handlerStart ∈ r.markers := by
  simp [markers]

theorem handlerEnd_mem_markers (r : ExceptionRange L) : r.handlerEnd ∈ r.markers := by
  simp [markers]

/-- The protected region and the handler each start no later than they end, labels being in the
order of their positions. -/
structure Ordered (position : L → Nat) (r : ExceptionRange L) : Prop where
  region : position r.tryStart ≤ position r.tryEnd
  handler : position r.handlerStart ≤ position r.handlerEnd

/-- What keeps the order of the markers keeps the order of the range. -/
theorem Ordered.mapLabels {position : L → Nat} {position' : L' → Nat} {f : L → L'}
    {r : ExceptionRange L} (h : r.Ordered position)
    (mono : ∀ x ∈ r.markers, ∀ y ∈ r.markers, position x ≤ position y →
      position' (f x) ≤ position' (f y)) : (r.mapLabels f).Ordered position' where
  region := mono _ r.tryStart_mem_markers _ r.tryEnd_mem_markers h.region
  handler := mono _ r.handlerStart_mem_markers _ r.handlerEnd_mem_markers h.handler

theorem Ordered.mono {position position' : L → Nat} {r : ExceptionRange L} (h : r.Ordered position)
    (mono : ∀ x ∈ r.markers, ∀ y ∈ r.markers, position x ≤ position y →
      position' x ≤ position' y) : r.Ordered position' :=
  mapLabels_id r ▸ h.mapLabels (f := id) mono

end ExceptionRange

end Graft
