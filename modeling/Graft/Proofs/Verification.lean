import Graft.Proofs.Fragments
import Graft.Proofs.Loading
import Graft.Proofs.Sample
import Graft.Proofs.Simulation
import Graft.Verify

/-!
# What verification says

A body verifies with a depth if it is not empty, sound, owned by its method, and simulates with this
depth within the declared one. The proofs here are the only ones that look into the checks of the
verifier.
-/

namespace Graft.Module

variable {m : Module} {k : MethodId} {b : LiveBody} {id : InsnId} {p r : Nat}

/-! ## Instructions -/

/-- A handle of a body is owned by the method, and what it stands for mentions only what is there.
-/
def Placed (m : Module) (k : MethodId) (b : LiveBody) (id : InsnId) : Prop :=
  m.arena.owner? id = some k ∧ ∃ i, m.arena.get? id = some i ∧
    i.Resolves m.toTables ∧ i.Fits (m.argumentCount k) b.locals.length ∧ ∀ l ∈ i.targets, l ∈ b.code

theorem checkInstruction_eq_ok {seen seen' : Std.HashSet InsnId} :
    m.checkInstruction k b b.locals.length seen (id, p) = .ok seen' ↔
      m.Placed k b id ∧ id ∉ seen ∧ seen' = seen.insert id := by
  rw [checkInstruction, refuse_eq_ok, not_or, not_not, Std.HashSet.contains_iff_mem, Placed,
    and_assoc, and_assoc]
  refine and_congr_right fun owned => ?_
  obtain ⟨i, hi⟩ := Arena.exists_get?_of_owner? owned
  rw [instruction?, hi]
  simp only [Option.some.injEq, exists_eq_left']
  constructor
  · rintro ⟨fresh, h⟩
    obtain ⟨⟨⟩, operands, h⟩ := bind_eq_ok.mp h
    obtain ⟨⟨⟩, targets, h⟩ := bind_eq_ok.mp h
    obtain ⟨resolves, fits⟩ := Tables.checkOperands_eq_ok.mp operands
    cases h
    exact ⟨⟨resolves, fits, checkTargets_eq_ok.mp targets⟩, fresh, rfl⟩
  · rintro ⟨⟨resolves, fits, targets⟩, fresh, rfl⟩
    exact ⟨fresh, bind_eq_ok.mpr ⟨(), Tables.checkOperands_eq_ok.mpr ⟨resolves, fits⟩,
      bind_eq_ok.mpr ⟨(), checkTargets_eq_ok.mpr targets, rfl⟩⟩⟩

/-- Going through handles in order, wherever their positions start, succeeds if each is in order and
stands neither before nor twice. -/
theorem foldlM_checkInstruction_eq_ok {ids : List InsnId} {seen : Std.HashSet InsnId} :
    (∃ seen', (ids.zipIdx p).foldlM (m.checkInstruction k b b.locals.length) seen = .ok seen') ↔
      ids.Nodup ∧ ∀ id ∈ ids, m.Placed k b id ∧ id ∉ seen := by
  induction ids generalizing seen p with
  | nil => simp [pure, Except.pure]
  | cons id ids ih =>
    have step : (∃ seen', ((id :: ids).zipIdx p).foldlM
          (m.checkInstruction k b b.locals.length) seen = .ok seen') ↔
        (m.Placed k b id ∧ id ∉ seen) ∧ ∃ seen',
          (ids.zipIdx (p + 1)).foldlM (m.checkInstruction k b b.locals.length)
            (seen.insert id) = .ok seen' := by
      simp only [List.zipIdx_cons, List.foldlM_cons, bind_eq_ok, checkInstruction_eq_ok]
      constructor
      · rintro ⟨seen', _, ⟨placed, fresh, rfl⟩, rest⟩
        exact ⟨⟨placed, fresh⟩, seen', rest⟩
      · rintro ⟨⟨placed, fresh⟩, seen', rest⟩
        exact ⟨seen', _, ⟨placed, fresh, rfl⟩, rest⟩
    rw [step, ih, List.nodup_cons, List.forall_mem_cons]
    simp only [Std.HashSet.mem_insert, beq_iff_eq, not_or]
    constructor
    · rintro ⟨first, distinct, rest⟩
      exact ⟨⟨fun hm => (rest id hm).2.1 rfl, distinct⟩, first,
        fun x hx => ⟨(rest x hx).1, (rest x hx).2.2⟩⟩
    · rintro ⟨⟨out, distinct⟩, first, rest⟩
      refine ⟨first, distinct, fun x hx => ⟨(rest x hx).1, ?_, (rest x hx).2⟩⟩
      rintro rfl
      exact out hx

theorem checkCode_eq_ok :
    m.checkCode k b = .ok () ↔ b.code.Nodup ∧ ∀ id ∈ b.code, m.Placed k b id := by
  rw [checkCode, discard_eq_ok, foldlM_checkInstruction_eq_ok]
  simp

/-! ## Exception ranges -/

/-- The check of a range, `find` being the place of a marker in the body. -/
theorem checkRange_eq_ok {find : InsnId → Except Fault Nat} {rg : ExceptionRange InsnId}
    {fault : Fault} (places : ∀ l x, find l = .ok x ↔ l ∈ b.code ∧ x = b.code.idxOf l) :
    (do
      let placed ← rg.mapLabelsM find
      if placed.tryEnd < placed.tryStart ∨ placed.handlerEnd < placed.handlerStart then
        throw fault) = Except.ok () ↔
      (∀ l ∈ rg.markers, l ∈ b.code) ∧ rg.Ordered b.code.idxOf := by
  rw [bind_eq_ok]
  constructor
  · rintro ⟨placed, h, forward⟩
    have inside : ∀ l ∈ rg.markers, l ∈ b.code := fun l hl => by
      obtain ⟨x, hx⟩ := ExceptionRange.exists_of_mapLabelsM h l hl
      exact ((places l x).mp hx).1
    obtain ⟨-, hts, hte, hhs, hhe⟩ := ExceptionRange.mapLabelsM_eq_ok h
    split at forward
    · cases forward
    · rename_i order
      refine ⟨inside, ?_, ?_⟩
      · rw [← ((places _ _).mp hts).2, ← ((places _ _).mp hte).2]
        omega
      · rw [← ((places _ _).mp hhs).2, ← ((places _ _).mp hhe).2]
        omega
  · rintro ⟨inside, region, handler⟩
    refine ⟨_, ExceptionRange.mapLabelsM_of_markers fun l hl =>
      (places l _).mpr ⟨inside l hl, rfl⟩, if_neg ?_⟩
    simp only [ExceptionRange.mapLabels]
    omega

theorem checkRanges_eq_ok :
    m.checkRanges k b = .ok () ↔
      ∀ rg ∈ b.ranges, (∀ l ∈ rg.markers, l ∈ b.code) ∧ rg.Ordered b.code.idxOf := by
  rw [checkRanges, forM_zipIdx_eq_ok]
  refine Iff.trans (forall_congr' fun i => forall_congr' fun rg => imp_congr_right fun _ =>
    checkRange_eq_ok (b := b) fun l x => ?_) ?_
  · rw [LiveBody.positionOf?_eq]
    by_cases hl : l ∈ b.code <;> simp [hl, eq_comm]
  · constructor
    · intro h rg hr
      obtain ⟨i, hi⟩ := List.mem_iff_getElem?.mp hr
      exact h i rg hi
    · exact fun h i rg hi => h rg (List.mem_of_getElem? hi)

/-! ## Bodies -/

/-- The body of a method is in order, and simulates with a depth that it declares. -/
structure Verified (m : Module) (k : MethodId) (b : LiveBody) (depth : Nat) : Prop where
  filled : b.code ≠ []
  owner? : ∀ id ∈ b.code, m.arena.owner? id = some k
  sound : b.Sound m.toTables k m.arena
  simulate : m.simulate k = .ok depth
  declared : depth ≤ b.maxStack.toNat

/-- The checks of the code and of the ranges ask for a sound body that the method owns. -/
theorem sound_iff_checks :
    (m.checkCode k b = .ok () ∧ m.checkRanges k b = .ok ()) ↔
      (∀ id ∈ b.code, m.arena.owner? id = some k) ∧ b.Sound m.toTables k m.arena := by
  rw [checkCode_eq_ok, checkRanges_eq_ok]
  constructor
  · rintro ⟨⟨distinct, placed⟩, ranges⟩
    refine ⟨fun id hid => (placed id hid).1, ⟨⟨distinct, ?_, ?_⟩, ?_, ?_, ?_⟩⟩
    · intro id hid i hi
      obtain ⟨-, _, hj, -, -, targets⟩ := placed id hid
      cases hi.symm.trans hj
      exact targets
    · exact fun rg hr => (ranges rg hr).1
    · intro id hid i hi
      obtain ⟨-, _, hj, resolves, -, -⟩ := placed id hid
      cases hi.symm.trans hj
      exact resolves
    · intro id hid i hi
      obtain ⟨-, _, hj, -, fits, -⟩ := placed id hid
      cases hi.symm.trans hj
      exact fits
    · exact fun rg hr => (ranges rg hr).2
  · rintro ⟨owned, sound⟩
    refine ⟨⟨sound.nodup, fun id hid => ⟨owned id hid, ?_⟩⟩, fun rg hr =>
      ⟨sound.markers rg hr, sound.ordered rg hr⟩⟩
    obtain ⟨i, hi⟩ := Arena.exists_get?_of_owner? (owned id hid)
    exact ⟨i, hi, sound.resolves id hid i hi, sound.fits id hid i hi, sound.targets id hid i hi⟩

theorem verifyBody_eq_ok :
    m.verifyBody k = .ok r ↔ ∃ b, m.body? k = some b ∧ m.Verified k b r := by
  rw [verifyBody, bind_eq_ok]
  refine exists_congr fun b => ?_
  rw [body_eq_ok]
  refine and_congr_right fun _ => ?_
  rw [refuse_eq_ok, List.isEmpty_iff]
  constructor
  · rintro ⟨filled, h⟩
    obtain ⟨⟨⟩, code, h⟩ := bind_eq_ok.mp h
    obtain ⟨⟨⟩, ranges, h⟩ := bind_eq_ok.mp h
    obtain ⟨required, simulate, h⟩ := bind_eq_ok.mp h
    obtain ⟨declared, ⟨⟩⟩ := refuse_eq_ok.mp h
    obtain ⟨owned, sound⟩ := sound_iff_checks.mp ⟨code, ranges⟩
    exact ⟨filled, owned, sound, simulate, Nat.le_of_not_lt declared⟩
  · rintro ⟨filled, owned, sound, simulate, declared⟩
    obtain ⟨code, ranges⟩ := sound_iff_checks.mpr ⟨owned, sound⟩
    refine ⟨filled, bind_eq_ok.mpr ⟨(), code, bind_eq_ok.mpr ⟨(), ranges,
      bind_eq_ok.mpr ⟨r, simulate, ?_⟩⟩⟩⟩
    exact refuse_eq_ok.mpr ⟨Nat.not_lt.mpr declared, rfl⟩

/-! ## Modules -/

theorem verifyBodies_eq_ok {ks : List MethodId} :
    m.verifyBodies ks = .ok () ↔ ∀ k ∈ ks, ∃ b r, m.body? k = some b ∧ m.Verified k b r := by
  rw [verifyBodies, forM_eq_ok]
  refine forall₂_congr fun k _ => ?_
  simp only [discard_eq_ok, verifyBody_eq_ok]
  exact exists_comm

theorem mem_methodIds (h : m.body? k = some b) : k ∈ m.methodIds := by
  obtain ⟨d, hd, -⟩ := exists_method? h
  exact Tables.mem_methodIds_of_method? hd

/-- A module verifies if every body does. -/
theorem verify_eq_ok :
    m.verify = .ok () ↔ ∀ k b, m.body? k = some b → ∃ r, m.Verified k b r := by
  rw [verify, verifyBodies_eq_ok]
  constructor
  · intro h k b hb
    obtain ⟨b', r, hb', verified⟩ :=
      h k (List.mem_filter.mpr ⟨mem_methodIds hb, by simp [hb]⟩)
    obtain rfl : b = b' := Option.some.inj (hb.symm.trans hb')
    exact ⟨r, verified⟩
  · intro h k hk
    obtain ⟨b, hb⟩ := Option.isSome_iff_exists.mp (List.mem_filter.mp hk).2
    obtain ⟨r, verified⟩ := h k b hb
    exact ⟨b, r, hb, verified⟩

end Graft.Module

/-! ## The sample -/

namespace Graft.Sample

/-- The body of the sample once it is loaded. -/
def live : LiveBody := body.place 0

theorem checked : file.check = .ok () := by decide +kernel

theorem numbered : file.build.Numbered := by constructor <;> decide +kernel

theorem body?_build_zero : file.build.body? ⟨0⟩ = some live := by decide +kernel

theorem linked_live : live.Linked file.build.arena :=
  (Placement.linked_build checked numbered).bodies ⟨0⟩ live body?_build_zero

theorem sound_live : live.Sound file.build.toTables ⟨0⟩ file.build.arena where
  toLinked := linked_live
  resolves _ hid _ hi := Placement.resolves_build checked numbered.slots body?_build_zero hid hi
  fits id hid i hi := by
    have none : ∀ id ∈ live.code, (file.build.arena.get? id).all fun i =>
        i.loc? = none ∧ i.arg? = none := by decide +kernel
    have := none id hid
    simp only [hi, Option.all_some, decide_eq_true_eq] at this
    exact ⟨by simp [this.1], by simp [this.2]⟩
  ordered r hr := by
    obtain rfl := List.mem_singleton.mp hr
    constructor <;> decide

/-- The handler is entered with the exception on the stack, so one place is needed. -/
theorem simulate_build : file.build.simulate ⟨0⟩ = .ok 1 := by
  rw [Module.simulate_eq body?_build_zero linked_live (by decide)]
  refine Module.visit_instruction linked_live (p := 2) (i := .pop) (by decide) (by decide) rfl
    (by decide +kernel) (by decide +kernel) ?_
  refine Module.visit_instruction linked_live (p := 3) (i := .leave (.ofIndex 4)) (by decide)
    (by decide) rfl (by decide +kernel) (by decide +kernel) ?_
  refine Module.visit_instruction linked_live (p := 4) (i := .ldcI4 7) (by decide) (by decide) rfl
    (by decide +kernel) (by decide +kernel) ?_
  refine Module.visit_instruction linked_live (p := 5) (i := .ret) (by decide) (by decide) rfl
    (by decide +kernel) (by decide +kernel) ?_
  refine Module.visit_instruction linked_live (p := 0) (i := .nop) (by decide) (by decide) rfl
    (by decide +kernel) (by decide +kernel) ?_
  refine Module.visit_instruction linked_live (p := 1) (i := .leave (.ofIndex 4)) (by decide)
    (by decide) rfl (by decide +kernel) (by decide +kernel) ?_
  exact (Simulation.visit_known (p := 4) (by decide) rfl).trans (Simulation.visit_nil.trans rfl)

theorem verified_live : file.build.Verified ⟨0⟩ live 1 :=
  ⟨by decide, by decide +kernel, sound_live, simulate_build, by decide⟩

/-- There is one method only. -/
theorem eq_zero_of_method? {k : MethodId} {d : Method LiveBody}
    (hd : file.build.method? k = some d) : k = ⟨0⟩ := by
  have hk : k.index < 1 := (Array.getElem?_eq_some_iff.mp hd).1
  rw [← MethodId.ofIndex_index k, Nat.lt_one_iff.mp hk]
  rfl

theorem sound_build : file.build.Sound where
  owner_iff := (Placement.linked_build checked numbered).owner_iff
  bodies k b hb := by
    obtain ⟨d, hd, -⟩ := Module.exists_method? hb
    obtain rfl := eq_zero_of_method? hd
    obtain rfl : live = b := Option.some.inj (body?_build_zero.symm.trans hb)
    exact sound_live

theorem verify_build : file.build.verify = .ok () := by
  refine Module.verify_eq_ok.mpr fun k b hb => ?_
  obtain ⟨d, hd, -⟩ := Module.exists_method? hb
  obtain rfl := eq_zero_of_method? hd
  obtain rfl : live = b := Option.some.inj (body?_build_zero.symm.trans hb)
  exact ⟨1, verified_live⟩

end Graft.Sample
