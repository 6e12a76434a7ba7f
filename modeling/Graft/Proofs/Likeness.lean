import Graft.Proofs.Naming
import Graft.Proofs.Positional
import Graft.Proofs.Relocation

/-!
# Bodies that look alike

Nothing can be told from the handles of a body but its view. Whatever is asked about a body, whether
it can be edited, what it needs of the stack, whether it verifies, and what can be lifted out of it,
is answered in the same way for two bodies that are seen as the same by position. Each answer is
first put in terms of the view, and then carried over.
-/

namespace Graft

/-! ## Labels that are looked up after they were changed -/

section Labels

variable {L L' L'' ε : Type}

theorem mapM_congr {α β : Type} {f g : α → Except ε β} {as : List α} (h : ∀ a ∈ as, f a = g a) :
    as.mapM f = as.mapM g := by
  induction as with
  | nil => rfl
  | cons a as ih =>
    rw [List.mapM_cons, List.mapM_cons, h a List.mem_cons_self,
      ih fun b hb => h b (List.mem_cons_of_mem _ hb)]

theorem Instruction.mapLabelsM_mapLabels {f : L' → Except ε L''} {g : L → L'}
    {h : L → Except ε L''} {i : Instruction L} (same : ∀ l ∈ i.targets, h l = f (g l)) :
    (i.mapLabels g).mapLabelsM f = i.mapLabelsM h := by
  cases i
  case br target | brIf _ target | brCmp _ target | leave target =>
    simp only [mapLabels, mapLabelsM, same target List.mem_cons_self]
  case switch labels =>
    have all : labels.mapM h = labels.mapM (f ∘ g) := mapM_congr same
    simp only [mapLabels, mapLabelsM, List.mapM_map, all]
  all_goals rfl

theorem ExceptionRange.mapLabelsM_mapLabels {f : L' → Except ε L''} {g : L → L'}
    {h : L → Except ε L''} {r : ExceptionRange L} (same : ∀ l ∈ r.markers, h l = f (g l)) :
    (r.mapLabels g).mapLabelsM f = r.mapLabelsM h := by
  obtain ⟨kind, tryStart, tryEnd, handlerStart, handlerEnd⟩ := r
  obtain ⟨hts, hte, hhs, hhe, hkind⟩ := forall_mem_markers.mp same
  have kinds : (kind.mapLabels g).mapLabelsM f = kind.mapLabelsM h := by
    cases kind with
    | filter start =>
      simp only [HandlerKind.mapLabels, HandlerKind.mapLabelsM, hkind start List.mem_cons_self]
    | _ => rfl
  simp only at hts hte hhs hhe
  simp only [mapLabels, mapLabelsM, kinds, hts, hte, hhs, hhe]

end Labels

/-- An instruction with other labels is executed like it. -/
theorem Instruction.executable_mapLabels {L L' : Type} {f : L → L'} {i : Instruction L}
    {effect : StackEffect} {length p depth : Nat} :
    (i.mapLabels f).Executable effect length p depth ↔ i.Executable effect length p depth :=
  ⟨fun h => ⟨h.enough, h.bounded, by simpa using h.inside⟩,
    fun h => ⟨h.enough, h.bounded, by simpa using h.inside⟩⟩

/-- The place of a label behind the first of positions `first` to `last`, if it lies inside. -/
def FileBody.inside? (first last : Nat) (l : UInt32) : Option Nat :=
  if isInside first last l then some (l.toNat - first) else none

namespace LiveBody

variable {a : Arena} {b : LiveBody} {id l : InsnId} {first last p : Nat}

/-! ## What is in a view -/

@[simp] theorem length_code_view : (b.view a).code.length = b.code.length := List.length_map _

theorem getElem?_code_view : (b.view a).code[p]? = b.code[p]?.map (viewInstruction a b) :=
  List.getElem?_map

theorem viewInstruction_eq {i : Instruction InsnId} (hi : a.get? id = some i) :
    viewInstruction a b id = i.mapLabels b.position := by
  rw [viewInstruction, hi, Option.getD_some]

namespace Readable

variable (h : b.Readable a)
include h

/-- What is true of the instructions of the view is true of those of the body. -/
theorem forall_mem_code {P : Instruction InsnId → Prop} {Q : Instruction UInt32 → Prop}
    (same : ∀ i : Instruction InsnId, (∀ l ∈ i.targets, l ∈ b.code) →
      (Q (i.mapLabels b.position) ↔ P i)) :
    (∀ id ∈ b.code, ∀ i, a.get? id = some i → P i) ↔ ∀ i ∈ (b.view a).code, Q i := by
  constructor
  · intro all x hx
    obtain ⟨id, hid, rfl⟩ := List.mem_map.mp hx
    obtain ⟨i, hi⟩ := h.stored id hid
    rw [viewInstruction_eq hi]
    exact (same i (h.targets id hid i hi)).mpr (all id hid i hi)
  · intro all id hid i hi
    refine (same i (h.targets id hid i hi)).mp ?_
    rw [← viewInstruction_eq hi]
    exact all _ (List.mem_map_of_mem hid)

/-- And so for exception ranges. -/
theorem forall_mem_ranges {P : ExceptionRange InsnId → Prop} {Q : ExceptionRange UInt32 → Prop}
    (same : ∀ r : ExceptionRange InsnId, (∀ l ∈ r.markers, l ∈ b.code) →
      (Q (r.mapLabels b.position) ↔ P r)) :
    (∀ r ∈ b.ranges, P r) ↔ ∀ r ∈ (b.view a).ranges, Q r := by
  show _ ↔ ∀ r ∈ b.ranges.map (·.mapLabels b.position), Q r
  rw [List.forall_mem_map]
  exact forall₂_congr fun r hr => (same r (h.markers r hr)).symm

/-- No label of a view leads out of it. -/
theorem closed : (b.view a).Closed where
  targets := by
    refine (h.forall_mem_code (P := fun _ => True) fun i inside => ?_).mp fun _ _ _ _ => trivial
    refine iff_of_true (fun l hl => ?_) trivial
    rw [Instruction.targets_mapLabels] at hl
    obtain ⟨x, hx, rfl⟩ := List.mem_map.mp hl
    rw [toNat_position h.nodup (inside x hx), length_code_view]
    exact List.idxOf_lt_length_of_mem (inside x hx)
  markers := by
    refine (h.forall_mem_ranges (P := fun _ => True) fun r inside => ?_).mp fun _ _ => trivial
    refine iff_of_true (fun l hl => ?_) trivial
    rw [ExceptionRange.markers_mapLabels] at hl
    obtain ⟨x, hx, rfl⟩ := List.mem_map.mp hl
    rw [toNat_position h.nodup (inside x hx), length_code_view]
    exact List.idxOf_lt_length_of_mem (inside x hx)

/-- The handles at positions `first` to `last` are seen inside. -/
theorem mem_span_iff (hl : l ∈ b.code) :
    l ∈ b.span first last ↔ FileBody.isInside first last (b.position l) = true := by
  rw [mem_span h.nodup, FileBody.isInside, toNat_position h.nodup hl]
  simp [hl]

/-- A label that is looked up in a span is found by its position. -/
theorem find?_span (hl : l ∈ b.code) :
    (Positions.ofList (b.span first last)).find? l =
      FileBody.inside? first last (b.position l) := by
  have distinct : (b.span first last).Nodup :=
    ((List.take_sublist _ _).trans (List.drop_sublist _ _)).nodup h.nodup
  have place := Positions.find?_eq distinct l
  rw [place, FileBody.inside?]
  simp only [h.mem_span_iff hl]
  by_cases inside : FileBody.isInside first last (b.position l) = true
  · rw [if_pos ((h.mem_span_iff hl).mpr inside)] at place
    have := Module.idxOf_of_find? h.nodup place
    rw [if_pos inside, if_pos inside, toNat_position h.nodup hl, this, Nat.add_sub_cancel_left]
  · rw [if_neg inside, if_neg inside]

end Readable

end LiveBody

namespace Module

variable {m : Module} {k : MethodId} {b : LiveBody} {id : InsnId} {p depth r n first last : Nat}

/-! ## Simulation -/

theorem stackStep_eq_ok_view (h : b.Readable m.arena) (hp : p < b.code.length)
    {out : Nat × List (Nat × Nat)} :
    m.stackStep k b.code.toArray (.ofList b.code) p depth = .ok out ↔
      ∃ i, (b.view m.arena).code[p]? = some i ∧
        i.Executable (m.stackEffect k i) b.code.length p depth ∧
        out = (Instruction.after (m.stackEffect k i) depth,
          i.successors UInt32.toNat (m.stackEffect k i) p depth) := by
  obtain ⟨i, hi⟩ := h.stored _ (List.getElem_mem hp)
  have seen : (b.view m.arena).code[p]? = some (i.mapLabels b.position) := by
    rw [LiveBody.getElem?_code_view, List.getElem?_eq_getElem hp, Option.map_some,
      LiveBody.viewInstruction_eq hi]
  have next : ∀ effect, (i.mapLabels b.position).successors UInt32.toNat effect p depth =
      i.successors b.code.idxOf effect p depth := fun effect =>
    Instruction.successors_mapLabels fun l hl =>
      LiveBody.toNat_position h.nodup (h.targets _ (List.getElem_mem hp) i hi l hl)
  rw [stackStep_eq_ok h.toLinked hp, hi, seen]
  simp only [Option.some.injEq, exists_eq_left', Tables.stackEffect_mapLabels, next,
    Instruction.executable_mapLabels]

theorem entries_eq_view (h : b.Readable m.arena) :
    b.entries = (0, 0) :: (b.view m.arena).ranges.flatMap fun r =>
      r.entryPoints.map fun e => (e.1.toNat, e.2) := by
  rw [LiveBody.entries]
  show _ = _ :: (b.ranges.map (·.mapLabels b.position)).flatMap _
  rw [List.flatMap_map]
  refine congrArg _ (List.flatMap_congr fun r hr => ?_)
  rw [ExceptionRange.entryPoints_mapLabels, List.map_map]
  refine List.map_congr_left fun e he => ?_
  have hm := h.markers r hr e.1 (ExceptionRange.mem_markers_of_mem_entryPoints he)
  simp only [Function.comp_apply, LiveBody.toNat_position h.nodup hm]

theorem filled_of_simulate (hb : m.body? k = some b) (h : m.simulate k = .ok r) : b.code ≠ [] := by
  intro empty
  have body : m.body k = .ok b := body_eq_ok.mpr hb
  rw [simulate, body] at h
  simp [empty, bind, Except.bind, throw, throwThe, MonadExceptOf.throw] at h

/-! ## Lifting -/

theorem liftInstruction_eq (h : b.Readable m.arena) (hid : id ∈ b.code) :
    m.liftInstruction k (.ofList (b.span first last)) id n =
      (b.viewInstruction m.arena id).mapLabelsM fun l =>
        match FileBody.inside? first last l with
        | some l => .ok l
        | none => .error (.externalBranch (m.methodName k) n) := by
  obtain ⟨i, hi⟩ := h.stored id hid
  rw [liftInstruction, LiveBody.viewInstruction_eq hi, instruction?, hi]
  refine (Instruction.mapLabelsM_mapLabels fun l hl => ?_).symm
  have found : (Positions.ofList (b.span first last)).find? l =
      FileBody.inside? first last (b.position l) := h.find?_span (h.targets id hid i hi l hl)
  cases inside : FileBody.inside? first last (b.position l) <;> rw [found, inside]

theorem liftRange?_eq (h : b.Readable m.arena) {rg : ExceptionRange InsnId} (hr : rg ∈ b.ranges) :
    m.liftRange? k (.ofList (b.span first last)) rg n =
      if (rg.mapLabels b.position).markers.all fun l => (FileBody.inside? first last l).isNone then
        .ok none
      else
        ((rg.mapLabels b.position).mapLabelsM fun l =>
          match FileBody.inside? first last l with
          | some l => .ok l
          | none => .error (.partialRange (m.methodName k) n)).map some := by
  have found : ∀ l ∈ rg.markers, (Positions.ofList (b.span first last)).find? l =
      FileBody.inside? first last (b.position l) := fun l hl => h.find?_span (h.markers rg hr l hl)
  have outside : (rg.mapLabels b.position).markers.all
      (fun l => (FileBody.inside? first last l).isNone) =
      rg.markers.all fun l => ((Positions.ofList (b.span first last)).find? l).isNone := by
    rw [ExceptionRange.markers_mapLabels, List.all_map, Bool.eq_iff_iff, List.all_eq_true,
      List.all_eq_true]
    exact forall₂_congr fun l hl => by rw [found l hl, Function.comp]
  rw [liftRange?, outside]
  split
  · rfl
  · refine congrArg (Except.map some) (ExceptionRange.mapLabelsM_mapLabels fun l hl => ?_).symm
    cases inside : FileBody.inside? first last (b.position l) <;> rw [found l hl, inside]

end Module

namespace FileBody

/-- The instructions at positions `first` to `last`, their labels counted from the first of them. -/
def liftCode (c : FileBody) (name : String) (first last : Nat) :
    Except Fault (List (Instruction Nat)) :=
  ((c.code.drop first).take (last + 1 - first)).zipIdx.mapM fun (i, p) =>
    i.mapLabelsM fun l =>
      match inside? first last l with
      | some l => .ok l
      | none => .error (.externalBranch name (first + p))

/-- The ranges that lie in positions `first` to `last`, and in their places those that lie outside.
-/
def liftRanges (c : FileBody) (name : String) (first last : Nat) :
    Except Fault (List (Option (ExceptionRange Nat))) :=
  c.ranges.zipIdx.mapM fun (r, n) =>
    if r.markers.all fun l => (inside? first last l).isNone then .ok none
    else
      (r.mapLabelsM fun l =>
        match inside? first last l with
        | some l => .ok l
        | none => .error (.partialRange name n)).map some

end FileBody

namespace Module

variable {m : Module} {k : MethodId} {b : LiveBody} {r first last : Nat}

/-- What is lifted out of a body can be told from its view. -/
theorem extract_eq_ok_view (hb : m.body? k = some b) (h : b.Readable m.arena) {f : Fragment} :
    m.extract k first last = .ok f ↔
      (first ≤ last ∧ last < (b.view m.arena).code.length) ∧
        (b.view m.arena).liftCode (m.methodName k) first last = .ok f.code ∧
        ∃ ranges, (b.view m.arena).liftRanges (m.methodName k) first last = .ok ranges ∧
          f.ranges = ranges.filterMap id := by
  have code : (b.view m.arena).liftCode (m.methodName k) first last =
      (b.span first last).zipIdx.mapM fun e =>
        m.liftInstruction k (.ofList (b.span first last)) e.1 (first + e.2) := by
    have span : ((b.view m.arena).code.drop first).take (last + 1 - first) =
        (b.span first last).map (b.viewInstruction m.arena) := by
      rw [LiveBody.span, List.map_take, List.map_drop]
      rfl
    rw [FileBody.liftCode, span, List.zipIdx_map, List.mapM_map]
    refine mapM_congr fun pair hp => ?_
    have hid := ((LiveBody.mem_span h.nodup).mp (List.fst_mem_of_mem_zipIdx hp)).1
    exact (liftInstruction_eq h hid).symm
  have ranges : (b.view m.arena).liftRanges (m.methodName k) first last =
      b.ranges.zipIdx.mapM fun e =>
        m.liftRange? k (.ofList (b.span first last)) e.1 e.2 := by
    show ((b.ranges.map (·.mapLabels b.position)).zipIdx.mapM _) = _
    rw [List.zipIdx_map, List.mapM_map]
    exact mapM_congr fun pair hp => (liftRange?_eq h (List.fst_mem_of_mem_zipIdx hp)).symm
  rw [extract_eq_ok, code, ranges, LiveBody.length_code_view]
  constructor
  · rintro ⟨b', ranges, hb', hs, rest⟩
    obtain rfl : b = b' := Option.some.inj (hb.symm.trans hb')
    exact ⟨hs, rest.1, ranges, rest.2⟩
  · rintro ⟨hs, code, ranges, rest⟩
    exact ⟨b, ranges, hb, hs, code, rest⟩

/-! ## Removal -/

/-- Whether jumps are in the way can be told from the view. -/
theorem checkNoJumpsInto_eq_ok_view (h : b.Readable m.arena) :
    m.checkNoJumpsInto k b first last (b.span first last) = .ok () ↔
      ∀ p i, (b.view m.arena).code[p]? = some i → p < first ∨ last < p →
        ∀ l ∈ i.targets, FileBody.isInside first last l = false := by
  rw [checkNoJumpsInto_eq_ok]
  simp only [LiveBody.getElem?_code_view, Option.map_eq_some_iff]
  have step : ∀ id ∈ b.code, ∀ i, m.arena.get? id = some i →
      ((∀ l ∈ i.targets, l ∉ b.span first last) ↔
        ∀ l ∈ (b.viewInstruction m.arena id).targets, FileBody.isInside first last l = false) := by
    intro id hid i hi
    rw [LiveBody.viewInstruction_eq hi, Instruction.targets_mapLabels, List.forall_mem_map]
    refine forall₂_congr fun l hl => ?_
    rw [h.mem_span_iff (h.targets id hid i hi l hl), Bool.not_eq_true]
  constructor
  · rintro all p _ ⟨id, hp, rfl⟩ out
    have hid := List.mem_of_getElem? hp
    obtain ⟨i, hi⟩ := h.stored id hid
    exact (step id hid i hi).mp (all p id hp out i hi)
  · intro all p id hp out i hi
    exact (step id (List.mem_of_getElem? hp) i hi).mpr (all p _ ⟨id, hp, rfl⟩ out)

/-- Ranges survive if each loses all its markers or none. -/
theorem exists_survivors {removed : List InsnId} :
    (∃ ranges, m.survivors k b removed = .ok ranges) ↔
      ∀ rg ∈ b.ranges, keeps removed rg = true → ∀ l ∈ rg.markers, l ∉ removed := by
  constructor
  · rintro ⟨ranges, h⟩ rg hr hk
    obtain ⟨rfl, whole⟩ := survivors_eq_ok h
    exact whole rg (List.mem_filter.mpr ⟨hr, hk⟩)
  · intro whole
    refine ⟨_, bind_eq_ok.mpr ⟨_, mapM_zipIdx_eq_ok_map
      (g := fun rg => if keeps removed rg then some rg else none) fun n rg hr => ?_, rfl⟩⟩
    have survives : m.survives k removed rg n = .ok (keeps removed rg) := by
      rw [survives]
      cases hk : keeps removed rg with
      | false => rw [if_pos (by simpa [keeps] using hk)]
      | true =>
        have none := whole rg hr hk
        rw [if_neg (by simpa [keeps] using hk), if_neg (by simpa using none)]
    exact bind_eq_ok.mpr ⟨_, survives, rfl⟩

theorem exists_survivors_view (h : b.Readable m.arena) :
    (∃ ranges, m.survivors k b (b.span first last) = .ok ranges) ↔
      ∀ rg ∈ (b.view m.arena).ranges, rg.markers.all (FileBody.isInside first last) = false →
        ∀ l ∈ rg.markers, FileBody.isInside first last l = false := by
  rw [exists_survivors]
  refine h.forall_mem_ranges fun rg inside => ?_
  rw [LiveBody.keeps_eq h.nodup inside, Bool.not_eq_true', ExceptionRange.markers_mapLabels,
    List.forall_mem_map]
  refine imp_congr_right fun _ => forall₂_congr fun l hl => ?_
  rw [h.mem_span_iff (inside l hl), Bool.not_eq_true]

/-! ## Verification -/

/-- Whether a body verifies that its method owns can be told from its view. -/
theorem verified_iff_view (hb : m.body? k = some b) (h : b.Readable m.arena)
    (owned : ∀ id ∈ b.code, m.arena.owner? id = some k) :
    m.Verified k b r ↔
      (∀ i ∈ (b.view m.arena).code, i.Resolves m.toTables) ∧
        (∀ i ∈ (b.view m.arena).code, i.Fits (m.argumentCount k) b.locals.length) ∧
        (∀ rg ∈ (b.view m.arena).ranges, rg.Ordered UInt32.toNat) ∧
        m.simulate k = .ok r ∧ r ≤ b.maxStack.toNat := by
  have resolves := h.forall_mem_code (P := (·.Resolves m.toTables)) (Q := (·.Resolves m.toTables))
    fun _ _ => Instruction.resolves_mapLabels
  have fits := h.forall_mem_code (P := (·.Fits (m.argumentCount k) b.locals.length))
    (Q := (·.Fits (m.argumentCount k) b.locals.length)) fun _ _ => Instruction.fits_mapLabels
  have ordered := h.forall_mem_ranges (P := (·.Ordered b.code.idxOf))
    (Q := (·.Ordered UInt32.toNat)) fun rg inside => by
      have place : ∀ l ∈ rg.markers, (b.position l).toNat = b.code.idxOf l :=
        fun l hl => LiveBody.toNat_position h.nodup (inside l hl)
      obtain ⟨hts, hte, hhs, hhe, -⟩ := ExceptionRange.forall_mem_markers.mp place
      exact ⟨fun o => ⟨hts ▸ hte ▸ o.region, hhs ▸ hhe ▸ o.handler⟩,
        fun o => ⟨hts.symm ▸ hte.symm ▸ o.region, hhs.symm ▸ hhe.symm ▸ o.handler⟩⟩
  rw [← resolves, ← fits, ← ordered]
  constructor
  · exact fun v => ⟨v.sound.resolves, v.sound.fits, v.sound.ordered, v.simulate, v.declared⟩
  · rintro ⟨resolves, fits, ordered, simulate, declared⟩
    exact ⟨filled_of_simulate hb simulate, owned, ⟨h.toLinked, resolves, fits, ordered⟩, simulate,
      declared⟩

end Module

/-! ## Two bodies -/

namespace Module

variable {m m' : Module} {k : MethodId} {b b' : LiveBody} {r : Nat} {first last : Nat}

/-- What the simulation of a body finds, that of another one does which is seen as the same and in
which instructions have the same effects. -/
theorem simulate_eq_ok_of_view {k' : MethodId} (hb : m.body? k = some b)
    (readable : b.Readable m.arena) (hb' : m'.body? k' = some b') (readable' : b'.Readable m'.arena)
    (code : (b'.view m'.arena).code = (b.view m.arena).code)
    (ranges : (b'.view m'.arena).ranges = (b.view m.arena).ranges)
    (effects : ∀ i ∈ (b.view m.arena).code, m'.stackEffect k' i = m.stackEffect k i)
    (hs : m.simulate k = .ok r) : m'.simulate k' = .ok r := by
  have length : b'.code.length = b.code.length := by simpa using congrArg List.length code
  have filled := filled_of_simulate hb hs
  have filled' : b'.code ≠ [] := by
    rw [← List.length_pos_iff] at filled ⊢
    rwa [length]
  have entries : b'.entries = b.entries := by
    rw [entries_eq_view readable', entries_eq_view readable, ranges]
  rw [simulate_eq hb readable.toLinked filled] at hs
  rw [simulate_eq hb' readable'.toLinked filled', length, entries]
  -- the searches begin at the same entries, so it is enough to compare their steps in the view
  refine Simulation.visit_eq_ok_of_steps (fun p depth out hp step => ?_) hs
  have hp : p < b.code.length := by simpa using hp
  obtain ⟨i, hi, step⟩ := (stackStep_eq_ok_view readable hp).mp step
  rw [stackStep_eq_ok_view readable' (length ▸ hp), code, length]
  exact ⟨i, hi, effects i (List.mem_of_getElem? hi) ▸ step⟩

theorem Verified.readable (h : m.Verified k b r) : b.Readable m.arena :=
  ⟨h.sound.toLinked, fun id hid => Arena.exists_get?_of_owner? (h.owner? id hid)⟩

/-- A body verifies if one does that is seen as the same, if its method takes as many arguments and
gives a value if that one does, and if it declares no less. -/
theorem Verified.of_view {k' : MethodId} (h : m.Verified k b r) (hb : m.body? k = some b)
    (hb' : m'.body? k' = some b') (readable' : b'.Readable m'.arena)
    (owned' : ∀ id ∈ b'.code, m'.arena.owner? id = some k')
    (tables : m.toTables.Extends m'.toTables)
    (arguments : m'.argumentCount k' = m.argumentCount k)
    (value : m'.givesValue k' = m.givesValue k)
    (view : b'.view m'.arena = { b.view m.arena with maxStack := b'.maxStack })
    (declared : r ≤ b'.maxStack.toNat) : m'.Verified k' b' r := by
  have code : (b'.view m'.arena).code = (b.view m.arena).code := by rw [view]
  have ranges : (b'.view m'.arena).ranges = (b.view m.arena).ranges := by rw [view]
  have locals : b'.locals.length = b.locals.length := by
    simpa [LiveBody.view] using congrArg (fun c : FileBody => c.locals.length) view
  obtain ⟨resolves, fits, ordered, simulate, -⟩ :=
    (verified_iff_view hb h.readable h.owner?).mp h
  refine (verified_iff_view hb' readable' owned').mpr ⟨?_, ?_, ?_, ?_, declared⟩
  · rw [code]
    exact fun i hi => tables.resolves (resolves i hi)
  · rw [code, arguments, locals]
    exact fits
  · rw [ranges]
    exact ordered
  · exact simulate_eq_ok_of_view hb h.readable hb' readable' code ranges
      (fun i hi => tables.stackEffect_eq_of_givesValue value (resolves i hi)) simulate

/-- The bodies of a method in two modules with the same declarations are seen as the same. -/
structure Alike (k : MethodId) (m m' : Module) (b b' : LiveBody) : Prop where
  declarations : m'.declarations = m.declarations
  body : m.body? k = some b
  body' : m'.body? k = some b'
  readable : b.Readable m.arena
  readable' : b'.Readable m'.arena
  view : b'.view m'.arena = b.view m.arena
  locals : b'.locals = b.locals

namespace Alike

theorem symm (h : Alike k m m' b b') : Alike k m' m b' b :=
  ⟨h.declarations.symm, h.body', h.body, h.readable', h.readable, h.view.symm, h.locals.symm⟩

variable (h : Alike k m m' b b')
include h

theorem length : b'.code.length = b.code.length := by
  simpa using congrArg (fun c : FileBody => c.code.length) h.view

theorem initLocals : b'.initLocals = b.initLocals :=
  congrArg (fun c : FileBody => c.initLocals) h.view

theorem maxStack : b'.maxStack = b.maxStack := congrArg (fun c : FileBody => c.maxStack) h.view

theorem outline : m'.outline = m.outline := Tables.outline_of_declarations h.declarations

theorem stackEffect {L : Type} (i : Instruction L) : m'.stackEffect k i = m.stackEffect k i :=
  Tables.stackEffect_of_outline h.outline

theorem methodName : m'.methodName k = m.methodName k :=
  Tables.methodName_of_outline h.outline

/-- What one simulation finds the other does. -/
theorem simulate_eq_ok (hs : m.simulate k = .ok r) : m'.simulate k = .ok r :=
  simulate_eq_ok_of_view h.body h.readable h.body' h.readable' (congrArg Body.code h.view)
    (congrArg Body.ranges h.view) (fun i _ => h.stackEffect i) hs

theorem simulate : (m'.simulate k).toOption = (m.simulate k).toOption := by
  refine Option.ext fun r => ?_
  rw [toOption_eq_some, toOption_eq_some]
  exact ⟨h.symm.simulate_eq_ok, h.simulate_eq_ok⟩

theorem extract {f : Fragment} :
    m'.extract k first last = .ok f ↔ m.extract k first last = .ok f := by
  rw [extract_eq_ok_view h.body' h.readable', extract_eq_ok_view h.body h.readable, h.view,
    h.methodName]

theorem resolves {L : Type} {i : Instruction L} :
    i.Resolves m'.toTables ↔ i.Resolves m.toTables :=
  Tables.resolves_of_declarations h.declarations

theorem fits {L : Type} {i : Instruction L} :
    i.Fits (m'.argumentCount k) b'.locals.length ↔ i.Fits (m.argumentCount k) b.locals.length := by
  rw [h.locals, Tables.argumentCount_of_declarations h.declarations]

theorem verified (owned : ∀ id ∈ b.code, m.arena.owner? id = some k)
    (owned' : ∀ id ∈ b'.code, m'.arena.owner? id = some k) :
    m'.Verified k b' r ↔ m.Verified k b r := by
  have simulate : m'.simulate k = .ok r ↔ m.simulate k = .ok r :=
    ⟨h.symm.simulate_eq_ok, h.simulate_eq_ok⟩
  rw [verified_iff_view h.body' h.readable' owned', verified_iff_view h.body h.readable owned,
    h.view, h.maxStack, simulate]
  simp only [h.resolves, h.fits]

end Alike

end Module

end Graft
