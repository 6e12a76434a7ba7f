import Graft.Edit.Whole
import Graft.Proofs.Places
import Graft.Proofs.Soundness

/-!
# What checks say

Each check of an edit succeeds exactly if what it looks at is as it must be. These are the only
proofs that look into the checks; the proofs about edits go by what is said here.
-/

namespace Graft

variable {μ β L ε : Type} {m : Module} {k : MethodId} {b : LiveBody}

/-! ## Lists of checks -/

theorem forM_eq_ok {α : Type} {f : α → Except ε Unit} {as : List α} :
    as.forM f = .ok () ↔ ∀ a ∈ as, f a = .ok () := by
  induction as with
  | nil => exact ⟨fun _ a ha => absurd ha List.not_mem_nil, fun _ => rfl⟩
  | cons a as ih =>
    show (f a >>= fun _ => as.forM f) = .ok () ↔ _
    rw [bind_eq_ok, List.forall_mem_cons, ← ih]
    constructor
    · rintro ⟨⟨⟩, h, hs⟩
      exact ⟨h, hs⟩
    · rintro ⟨h, hs⟩
      exact ⟨(), h, hs⟩

/-- A check of every element with its place. -/
theorem forM_zipIdx_eq_ok {α : Type} {f : α × Nat → Except ε Unit} {as : List α} :
    as.zipIdx.forM f = .ok () ↔ ∀ p a, as[p]? = some a → f (a, p) = .ok () := by
  rw [forM_eq_ok]
  constructor
  · intro h p a hp
    exact h (a, p) (List.mem_zipIdx_iff_getElem?.mpr hp)
  · rintro h ⟨a, p⟩ hm
    exact h p a (List.mem_zipIdx_iff_getElem?.mp hm)

/-! ## Operands and jump targets -/

/-- A check that refuses what is not below a bound. -/
theorem ite_le_eq_ok {n bound : Nat} {refused accepted : Except ε Unit} (no : refused ≠ .ok ())
    (yes : accepted = .ok ()) :
    (if bound ≤ n then refused else accepted) = .ok () ↔ n < bound := by
  split
  · exact iff_of_false no (by omega)
  · exact iff_of_true yes (by omega)

namespace Tables

variable {t : Tables μ β}

theorem missingType?_eq_none {s : TypeSig} :
    t.missingType? s = none ↔ ∀ id, s.mentioned? = some id → id.index < t.types.size := by
  rw [missingType?]
  cases s.mentioned? <;> simp

theorem checkOperandType_eq_ok {s : TypeSig} :
    t.checkOperandType s = .ok () ↔
      ∀ id, s.mentioned? = some id → id.index < t.types.size := by
  rw [← missingType?_eq_none, checkOperandType]
  cases t.missingType? s <;> simp

/-- An instruction has one operand at most, so that only one of the five checks matters. -/
theorem checkOperands_eq_ok {locals : Nat} {i : Instruction L} :
    t.checkOperands k locals i = .ok () ↔ i.Resolves t ∧ i.Fits (t.argumentCount k) locals := by
  cases i with
  | loc access x =>
    rw [Instruction.fits_loc, and_iff_right (.of_none rfl rfl rfl)]
    show (if locals ≤ x.toNat then _ else _) = _ ↔ _
    exact ite_le_eq_ok nofun rfl
  | arg access x =>
    rw [Instruction.fits_arg, and_iff_right (.of_none rfl rfl rfl)]
    show (if t.argumentCount k ≤ x.toNat then _ else _) = _ ↔ _
    exact ite_le_eq_ok nofun rfl
  | field access id =>
    rw [Instruction.resolves_field, and_iff_left (.of_none rfl rfl)]
    show (if t.fields.size ≤ id.index then _ else _) = _ ↔ _
    exact ite_le_eq_ok nofun rfl
  | call form id =>
    rw [Instruction.resolves_call, and_iff_left (.of_none rfl rfl)]
    show (if t.methods.size ≤ id.index then _ else _) = _ ↔ _
    exact ite_le_eq_ok nofun rfl
  | typed op s =>
    rw [Instruction.resolves_typed, and_iff_left (.of_none rfl rfl)]
    exact checkOperandType_eq_ok
  | _ => exact iff_of_true rfl ⟨.of_none rfl rfl rfl, .of_none rfl rfl⟩

end Tables

namespace LiveBody

theorem positionOf?_eq {id : InsnId} :
    b.positionOf? id = if id ∈ b.code then some (b.code.idxOf id) else none := by
  rw [positionOf?]
  induction b.code with
  | nil => simp
  | cons x xs ih =>
    rw [List.findIdx?_cons, ih, List.idxOf_cons]
    by_cases hx : x = id
    · simp [hx]
    · have hne : id ≠ x := fun h => hx h.symm
      by_cases hm : id ∈ xs <;> simp [hx, hne, hm, beq_false_of_ne hx]

end LiveBody

namespace Module

theorem checkTargets_eq_ok {p : Nat} {i : Instruction InsnId} :
    m.checkTargets k b p i = .ok () ↔ ∀ l ∈ i.targets, l ∈ b.code := by
  rw [checkTargets]
  cases h : i.targets.find? (! b.contains ·) with
  | none =>
    refine iff_of_true rfl ?_
    intro l hl
    simpa [LiveBody.contains] using List.find?_eq_none.mp h l hl
  | some l =>
    refine iff_of_false (by simp) ?_
    intro all
    have out := List.find?_some h
    have := all l (List.mem_of_find?_eq_some h)
    simp [LiveBody.contains, this] at out

theorem checkPlacement_eq_ok {p : Nat} {i : Instruction InsnId} :
    m.checkPlacement k b p i = .ok () ↔
      i.Resolves m.toTables ∧ i.Fits (m.argumentCount k) b.locals.length ∧
        ∀ l ∈ i.targets, l ∈ b.code := by
  rw [checkPlacement, bind_eq_ok, ← and_assoc, ← Tables.checkOperands_eq_ok, ← checkTargets_eq_ok]
  constructor
  · rintro ⟨⟨⟩, h⟩
    exact h
  · intro h
    exact ⟨(), h⟩

/-! ## Positions -/

theorem checkPosition_eq_ok {p : Nat} :
    m.checkPosition k b p = .ok () ↔ p ≤ b.code.length := by
  rw [checkPosition]
  split <;> simp [*]

theorem handleAt_eq_ok {p : Nat} {id : InsnId} :
    m.handleAt k b p = .ok id ↔ b.code[p]? = some id := by
  rw [handleAt]
  split <;> simp [*]

theorem checkRemovable_eq_ok {first last : Nat} :
    m.checkRemovable k b first last = .ok () ↔ first ≤ last ∧ last < b.code.length := by
  rw [checkRemovable]
  split
  · exact iff_of_false nofun (by omega)
  · split
    · exact iff_of_false nofun (by omega)
    · exact iff_of_true rfl (by omega)

theorem checkSpan_eq_ok {first last : Nat} :
    m.checkSpan k b first last = .ok () ↔ first ≤ last ∧ last < b.code.length := by
  rw [checkSpan]
  split
  · exact iff_of_false nofun (by omega)
  · split
    · exact iff_of_false nofun (by omega)
    · exact iff_of_true rfl (by omega)

theorem checkLocalsLeft_eq_ok :
    m.checkLocalsLeft k b = .ok () ↔ b.locals.length < maxLocals := by
  rw [checkLocalsLeft]
  split <;> simp [*]

/-! ## Removals -/

/-- Nothing that stays jumps to what goes. -/
theorem checkNoJumpsInto_eq_ok {first last : Nat} {removed : List InsnId} :
    m.checkNoJumpsInto k b first last removed = .ok () ↔
      ∀ p id, b.code[p]? = some id → p < first ∨ last < p →
        ∀ i, m.instruction? id = some i → ∀ l ∈ i.targets, l ∉ removed := by
  rw [checkNoJumpsInto, forM_zipIdx_eq_ok]
  refine forall_congr' fun p => forall_congr' fun id => imp_congr_right fun _ => ?_
  show (if first ≤ p ∧ p ≤ last then _ else _) = _ ↔ _
  split
  · exact iff_of_true rfl fun h => by omega
  · rename_i outside
    have outside : p < first ∨ last < p := by omega
    cases hi : m.instruction? id with
    | none => exact iff_of_true rfl fun _ _ h => by cases h
    | some i =>
      cases hl : i.targets.find? removed.contains with
      | none =>
        simp only [Option.bind_some, hl, true_iff]
        rintro - _ ⟨⟩ l hm
        simpa using List.find?_eq_none.mp hl l hm
      | some l =>
        simp only [Option.bind_some, hl, reduceCtorEq, false_iff]
        intro h
        refine h outside i rfl l (List.mem_of_find?_eq_some hl) ?_
        simpa using List.find?_some hl

/-- Does a range have a marker that stays? -/
def keeps (removed : List InsnId) (r : ExceptionRange InsnId) : Bool :=
  ! r.markers.all removed.contains

theorem survives_eq_ok {removed : List InsnId} {r : ExceptionRange InsnId} {index : Nat}
    {kept : Bool} (h : m.survives k removed r index = .ok kept) :
    kept = keeps removed r ∧ (kept = true → ∀ l ∈ r.markers, l ∉ removed) := by
  rw [survives] at h
  split at h
  · rename_i all
    cases h
    simp [keeps, all]
  · rename_i all
    split at h
    · cases h
    · rename_i any
      cases h
      refine ⟨by simp [keeps, all], fun _ l hl hr => any ?_⟩
      exact List.any_eq_true.mpr ⟨l, hl, by simpa using hr⟩

/-- Exactly the ranges with a marker that stays survive, and they keep all their markers. -/
theorem survivors_eq_ok {removed : List InsnId} {ranges : List (ExceptionRange InsnId)}
    (h : m.survivors k b removed = .ok ranges) :
    ranges = b.ranges.filter (keeps removed) ∧
      ∀ r ∈ ranges, ∀ l ∈ r.markers, l ∉ removed := by
  obtain ⟨kept, hkept, same⟩ := bind_eq_ok.mp h
  cases same
  clear h
  -- by induction on the ranges, wherever their numbers start
  generalize 0 = start at hkept
  generalize b.ranges = rs at hkept ⊢
  induction rs generalizing kept start with
  | nil =>
    cases hkept
    simp
  | cons r rs ih =>
    rw [List.zipIdx_cons] at hkept
    obtain ⟨_, rest, hr, hrest, rfl⟩ := mapM_cons_eq_ok.mp hkept
    obtain ⟨stays, hs, hr⟩ := bind_eq_ok.mp hr
    cases hr
    obtain ⟨rfl, whole⟩ := survives_eq_ok hs
    obtain ⟨same, others⟩ := ih rest (start + 1) hrest
    rw [List.filter_cons]
    cases hk : keeps removed r with
    | false => exact ⟨same, others⟩
    | true =>
      refine ⟨congrArg (r :: ·) same, ?_⟩
      intro r' hr'
      rcases List.mem_cons.mp hr' with rfl | hr'
      · exact whole hk
      · exact others r' hr'

end Module

/-! ## Calls on new instances -/

namespace Tables

/-- The type of a local for an instance of a type. -/
def instanceType (t : Tables μ β) (owner : TypeId) : TypeSig :=
  if (t.type? owner).any TypeDef.isValueType then .valueType owner else .classType owner

/-- A type that is an entry of the table mentions it. -/
theorem mentioned?_of_typeId? {s : TypeSig} {id : TypeId} (h : s.typeId? = some id) :
    s.mentioned? = some id := by
  cases s with
  | classType | valueType => exact h
  | _ => cases h

theorem typeId?_instanceType {t : Tables μ β} {owner : TypeId} :
    (t.instanceType owner).typeId? = some owner := by
  rw [instanceType]
  split <;> rfl

@[simp] theorem mentioned?_instanceType {t : Tables μ β} {owner : TypeId} :
    (t.instanceType owner).mentioned? = some owner :=
  mentioned?_of_typeId? typeId?_instanceType

variable {t : Tables Members β} {owner : TypeId} {d : Method β}

/-- Look-ups go through what is listed with a type. -/
theorem findParameterlessConstructor_eq_some
    (h : t.findParameterlessConstructor owner = some k) :
    k ∈ t.methodsOf owner ∧
      ∃ d, t.method? k = some d ∧ d.isConstructor = true ∧ d.signature.params = [] := by
  rw [findParameterlessConstructor] at h
  have suits := List.find?_some h
  obtain ⟨d, hd, suits⟩ := (Option.any_eq_true _ _).mp suits
  rw [Bool.and_eq_true, List.isEmpty_iff] at suits
  exact ⟨List.mem_of_find?_eq_some h, d, hd, suits⟩

theorem exists_findParameterlessConstructor (listed : k ∈ t.methodsOf owner)
    (hd : t.method? k = some d) (constructs : d.isConstructor = true)
    (few : d.signature.params = []) :
    ∃ k', t.findParameterlessConstructor owner = some k' := by
  refine Option.isSome_iff_exists.mp (List.find?_isSome.mpr ⟨k, listed, ?_⟩)
  rw [hd, Option.any_some, constructs, few]
  rfl

theorem requireConstructor_eq_ok :
    t.requireConstructor owner = .ok k ↔ t.findParameterlessConstructor owner = some k := by
  rw [requireConstructor]
  cases t.findParameterlessConstructor owner <;> simp

end Tables

namespace Module

variable {m : Module} {callee constructor : MethodId} {d : Method LiveBody} {type : TypeSig}

theorem checkInjectable_eq_ok : m.checkInjectable callee = .ok () ↔
    ∃ d, m.method? callee = some d ∧ d.signature.params = [] ∧ d.isConstructor = false := by
  rw [checkInjectable]
  cases m.method? callee with
  | none => simp
  | some d => simp

theorem receiver?_eq_none (hd : m.method? callee = some d) :
    m.receiver? callee = .ok none ↔ d.isStatic = true := by
  rw [receiver?, hd]
  by_cases static : d.isStatic = true
  · simp [static]
  · refine iff_of_false (fun h => ?_) static
    simp only [static, Bool.false_eq_true, if_false] at h
    obtain ⟨constructor, -, made⟩ := bind_eq_ok.mp h
    cases made

theorem receiver?_eq_some (hd : m.method? callee = some d) :
    m.receiver? callee = .ok (some (type, constructor)) ↔ d.isStatic = false ∧
      m.findParameterlessConstructor d.owner = some constructor ∧
      type = m.instanceType d.owner := by
  rw [receiver?, hd]
  by_cases static : d.isStatic = true
  · simp [static]
  · simp only [static, Bool.false_eq_true, if_false, true_and]
    rw [bind_eq_ok]
    simp only [Tables.requireConstructor_eq_ok]
    constructor
    · rintro ⟨constructor', found, made⟩
      cases made
      exact ⟨found, rfl⟩
    · rintro ⟨found, rfl⟩
      exact ⟨_, found, rfl⟩

end Module

end Graft
