import Graft.Proofs.Likeness
import Graft.Proofs.Sample
import Graft.Proofs.Search
import Graft.Proofs.Verification

/-!
# Paths through a body

Control enters a body at its first instruction and at the handlers and filters of its exception
ranges, and goes on from each instruction to the targets of its jumps and, if it falls through, to
the next one. The simulation of a body is exact for these paths: it succeeds if and only if every
instruction on a path can be executed with the depth that the path brings, and all paths bring the
same depth; its answer is the deepest that the stack gets on any of them.
-/

namespace Graft

/-! ## Reaching an instruction -/

/-- Control enters the body at a position with a depth. A handler of exceptions and a filter find
the exception on the stack. -/
inductive LiveBody.Enters (b : LiveBody) : Nat → Nat → Prop where
  | first : b.Enters 0 0
  | catching {r : ExceptionRange InsnId} {type : TypeSig} {p : Nat} (hr : r ∈ b.ranges)
    (kind : r.kind = .catching type) (hp : b.code[p]? = some r.handlerStart) : b.Enters p 1
  | filter {r : ExceptionRange InsnId} {start : InsnId} {p : Nat} (hr : r ∈ b.ranges)
    (kind : r.kind = .filter start) (hp : b.code[p]? = some start) : b.Enters p 1
  | filtered {r : ExceptionRange InsnId} {start : InsnId} {p : Nat} (hr : r ∈ b.ranges)
    (kind : r.kind = .filter start) (hp : b.code[p]? = some r.handlerStart) : b.Enters p 1
  | finallyDo {r : ExceptionRange InsnId} {p : Nat} (hr : r ∈ b.ranges)
    (kind : r.kind = .finallyDo) (hp : b.code[p]? = some r.handlerStart) : b.Enters p 0
  | fault {r : ExceptionRange InsnId} {p : Nat} (hr : r ∈ b.ranges)
    (kind : r.kind = .fault) (hp : b.code[p]? = some r.handlerStart) : b.Enters p 0

/-- Control enters a body at one of its instructions. -/
theorem LiveBody.Enters.lt {b : LiveBody} {p depth : Nat} (h : b.Enters p depth)
    (filled : b.code ≠ []) : p < b.code.length := by
  cases h with
  | first => exact List.length_pos_of_ne_nil filled
  | catching _ _ here => exact (List.getElem?_eq_some_iff.mp here).1
  | filter _ _ here => exact (List.getElem?_eq_some_iff.mp here).1
  | filtered _ _ here => exact (List.getElem?_eq_some_iff.mp here).1
  | finallyDo _ _ here => exact (List.getElem?_eq_some_iff.mp here).1
  | fault _ _ here => exact (List.getElem?_eq_some_iff.mp here).1

/-- Control enters a body at its first instruction and at the entry points of its ranges. -/
theorem LiveBody.enters_iff {b : LiveBody} {p depth : Nat} : b.Enters p depth ↔
    (p = 0 ∧ depth = 0) ∨
      ∃ r ∈ b.ranges, ∃ l, (l, depth) ∈ r.entryPoints ∧ b.code[p]? = some l := by
  constructor
  · intro enters
    cases enters with
    | first => exact .inl ⟨rfl, rfl⟩
    | catching hr kind hp => exact .inr ⟨_, hr, _, by simp [ExceptionRange.entryPoints, kind], hp⟩
    | filter hr kind hp => exact .inr ⟨_, hr, _, by simp [ExceptionRange.entryPoints, kind], hp⟩
    | filtered hr kind hp => exact .inr ⟨_, hr, _, by simp [ExceptionRange.entryPoints, kind], hp⟩
    | finallyDo hr kind hp => exact .inr ⟨_, hr, _, by simp [ExceptionRange.entryPoints, kind], hp⟩
    | fault hr kind hp => exact .inr ⟨_, hr, _, by simp [ExceptionRange.entryPoints, kind], hp⟩
  · rintro (⟨rfl, rfl⟩ | ⟨r, hr, l, he, hp⟩)
    · exact .first
    · unfold ExceptionRange.entryPoints at he
      cases kind : r.kind with
      | catching type =>
        obtain ⟨rfl, rfl⟩ : l = r.handlerStart ∧ depth = 1 := by simpa [kind] using he
        exact .catching hr kind hp
      | filter start =>
        obtain ⟨rfl, rfl⟩ | ⟨rfl, rfl⟩ :
            l = start ∧ depth = 1 ∨ l = r.handlerStart ∧ depth = 1 := by simpa [kind] using he
        · exact .filter hr kind hp
        · exact .filtered hr kind hp
      | finallyDo =>
        obtain ⟨rfl, rfl⟩ : l = r.handlerStart ∧ depth = 0 := by simpa [kind] using he
        exact .finallyDo hr kind hp
      | fault =>
        obtain ⟨rfl, rfl⟩ : l = r.handlerStart ∧ depth = 0 := by simpa [kind] using he
        exact .fault hr kind hp

namespace Module

/-- The instruction at a position of a body. -/
def instructionAt? (m : Module) (b : LiveBody) (p : Nat) : Option (Instruction InsnId) :=
  b.code[p]?.bind m.instruction?

/-- Some path through the body of `k` comes to a position with a depth. -/
inductive Reaches (m : Module) (k : MethodId) (b : LiveBody) : Nat → Nat → Prop where
  | enter {p depth : Nat} (h : b.Enters p depth) : Reaches m k b p depth
  | jump {p depth q : Nat} {i : Instruction InsnId} {l : InsnId} (before : Reaches m k b p depth)
    (hi : m.instructionAt? b p = some i) (hl : l ∈ i.targets) (hq : b.code[q]? = some l) :
    Reaches m k b q (i.left (m.stackEffect k i) depth)
  | next {p depth : Nat} {i : Instruction InsnId} (before : Reaches m k b p depth)
    (hi : m.instructionAt? b p = some i) (falls : i.fallsThrough = true) :
    Reaches m k b (p + 1) (i.left (m.stackEffect k i) depth)

/-- Every instruction on a path can be executed, and the depth at it is the same on all paths. -/
structure Balanced (m : Module) (k : MethodId) (b : LiveBody) : Prop where
  filled : b.code ≠ []
  runs : ∀ p depth i, m.Reaches k b p depth → m.instructionAt? b p = some i →
    i.Executable (m.stackEffect k i) b.code.length p depth
  agree : ∀ p depth depth', m.Reaches k b p depth → m.Reaches k b p depth' → depth = depth'

/-- The depths before and after the instructions on the paths through the body. -/
def PathDepth (m : Module) (k : MethodId) (b : LiveBody) (x : Nat) : Prop :=
  ∃ p depth i, m.Reaches k b p depth ∧ m.instructionAt? b p = some i ∧
    (x = depth ∨ x = Instruction.after (m.stackEffect k i) depth)

/-! ## Positions of handles -/

variable {m : Module} {k : MethodId} {b : LiveBody} {p depth : Nat}

theorem idxOf_eq_iff (h : b.Linked m.arena) {l : InsnId} (hl : l ∈ b.code) :
    b.code.idxOf l = p ↔ b.code[p]? = some l := by
  constructor
  · rintro rfl
    exact Places.getElem?_idxOf hl
  · exact Places.idxOf_of_getElem? h.nodup

/-- The simulation starts where control enters. -/
theorem mem_entries_iff (h : b.Linked m.arena) : (p, depth) ∈ b.entries ↔ b.Enters p depth := by
  have entry : ∀ r ∈ b.ranges, ∀ e ∈ r.entryPoints, e.1 ∈ b.code := by
    intro r hr e he
    exact h.markers r hr _ (ExceptionRange.mem_markers_of_mem_entryPoints he)
  rw [LiveBody.enters_iff, LiveBody.entries, List.mem_cons, List.mem_flatMap]
  refine or_congr Prod.ext_iff (exists_congr fun r => and_congr_right fun hr => ?_)
  rw [List.mem_map]
  constructor
  · rintro ⟨⟨l, d⟩, he, same⟩
    obtain ⟨place, rfl⟩ := Prod.mk.inj same
    exact ⟨l, he, (idxOf_eq_iff h (entry r hr _ he)).mp place⟩
  · rintro ⟨l, he, hp⟩
    exact ⟨(l, depth), he, Prod.ext ((idxOf_eq_iff h (entry r hr _ he)).mpr hp) rfl⟩

/-! ## The simulation follows the paths -/

/-- The steps of the simulation of the body. -/
abbrev pathStep (m : Module) (k : MethodId) (b : LiveBody) : Simulation.Machine :=
  m.stackStep k b.code.toArray (.ofList b.code)

/-- What follows an instruction is where a path goes from it. -/
theorem mem_successors_iff (h : b.Linked m.arena) {i : Instruction InsnId} {q next : Nat}
    (hi : m.instructionAt? b p = some i) {effect : StackEffect} :
    (q, next) ∈ i.successors b.code.idxOf effect p depth ↔ next = i.left effect depth ∧
      ((∃ l ∈ i.targets, b.code[q]? = some l) ∨ (i.fallsThrough = true ∧ q = p + 1)) := by
  obtain ⟨id, hid, hi⟩ := Option.bind_eq_some_iff.mp hi
  have inside : ∀ l ∈ i.targets, l ∈ b.code :=
    h.targets id (List.mem_of_getElem? hid) i hi
  rw [Instruction.successors, List.mem_append, List.mem_map]
  constructor
  · rintro (⟨l, hl, same⟩ | falls)
    · obtain ⟨place, rfl⟩ := Prod.mk.inj same
      exact ⟨rfl, .inl ⟨l, hl, (idxOf_eq_iff h (inside l hl)).mp place⟩⟩
    · by_cases through : i.fallsThrough = true
      · rw [if_pos through, List.mem_singleton] at falls
        obtain ⟨rfl, rfl⟩ := Prod.mk.inj falls
        exact ⟨rfl, .inr ⟨through, rfl⟩⟩
      · rw [if_neg through] at falls
        cases falls
  · rintro ⟨rfl, ⟨l, hl, hq⟩ | ⟨through, rfl⟩⟩
    · exact .inl ⟨l, hl, Prod.ext ((idxOf_eq_iff h (inside l hl)).mpr hq) rfl⟩
    · rw [if_pos through]
      exact .inr (List.mem_singleton.mpr rfl)

/-- A step of the simulation executes the instruction at its position. -/
theorem pathStep_eq_ok (h : b.Linked m.arena) (hp : p < b.code.length)
    {out : Nat × List (Nat × Nat)} :
    m.pathStep k b p depth = .ok out ↔ ∃ i, m.instructionAt? b p = some i ∧
      i.Executable (m.stackEffect k i) b.code.length p depth ∧
      out = (Instruction.after (m.stackEffect k i) depth,
        i.successors b.code.idxOf (m.stackEffect k i) p depth) := by
  have here : m.instructionAt? b p = m.arena.get? b.code[p] := by
    rw [instructionAt?, List.getElem?_eq_getElem hp]
    rfl
  rw [here]
  exact stackStep_eq_ok h hp

theorem bounded_pathStep (h : b.Linked m.arena) (filled : b.code ≠ []) :
    Simulation.Bounded (m.pathStep k b) b.entries.reverse b.code.length where
  starts p depth hp := by
    exact ((mem_entries_iff h).mp (List.mem_reverse.mp hp)).lt filled
  steps p depth after following hp ran q next hq := by
    obtain ⟨i, hi, runs, same⟩ := (pathStep_eq_ok h hp).mp ran
    cases same
    obtain ⟨-, ⟨l, -, hl⟩ | ⟨through, rfl⟩⟩ := (mem_successors_iff h hi).mp hq
    · exact (List.getElem?_eq_some_iff.mp hl).1
    · exact runs.inside through

/-- What the simulation comes to is on a path. -/
theorem reaches_of_comes (h : b.Linked m.arena) (filled : b.code ≠ [])
    (comes : Simulation.Comes (m.pathStep k b) b.entries.reverse p depth) :
    m.Reaches k b p depth := by
  induction comes with
  | start hp => exact .enter ((mem_entries_iff h).mp (List.mem_reverse.mp hp))
  | step before ran hq ih =>
    have hp := before.lt (bounded_pathStep h filled)
    obtain ⟨i, hi, -, same⟩ := (pathStep_eq_ok h hp).mp ran
    cases same
    obtain ⟨rfl, ⟨l, hl, hq⟩ | ⟨through, rfl⟩⟩ := (mem_successors_iff h hi).mp hq
    · exact ih.jump hi hl hq
    · exact ih.next hi through

/-- If the simulation can go on from everything that it comes to, it comes to all that is on a
path. -/
theorem comes_of_reaches (h : b.Linked m.arena) (filled : b.code ≠ [])
    (steady : Simulation.Steady (m.pathStep k b) b.entries.reverse)
    (reaches : m.Reaches k b p depth) :
    Simulation.Comes (m.pathStep k b) b.entries.reverse p depth := by
  have step : ∀ p depth i, Simulation.Comes (m.pathStep k b) b.entries.reverse p depth →
      m.instructionAt? b p = some i → ∃ after, m.pathStep k b p depth =
        .ok (after, i.successors b.code.idxOf (m.stackEffect k i) p depth) := by
    intro p depth i comes hi
    obtain ⟨out, ran⟩ := steady.runs p depth comes
    obtain ⟨i', hi', -, rfl⟩ :=
      (pathStep_eq_ok h (comes.lt (bounded_pathStep h filled))).mp ran
    obtain rfl : i = i' := Option.some.inj (hi.symm.trans hi')
    exact ⟨_, ran⟩
  induction reaches with
  | enter enters => exact .start (List.mem_reverse.mpr ((mem_entries_iff h).mpr enters))
  | jump before hi hl hq ih =>
    obtain ⟨after, ran⟩ := step _ _ _ ih hi
    exact ih.step ran ((mem_successors_iff h hi).mpr ⟨rfl, .inl ⟨_, hl, hq⟩⟩)
  | next before hi through ih =>
    obtain ⟨after, ran⟩ := step _ _ _ ih hi
    exact ih.step ran ((mem_successors_iff h hi).mpr ⟨rfl, .inr ⟨through, rfl⟩⟩)

/-- The simulation can go on everywhere exactly if the body is balanced. -/
theorem steady_iff_balanced (readable : b.Readable m.arena) (filled : b.code ≠ []) :
    Simulation.Steady (m.pathStep k b) b.entries.reverse ↔ m.Balanced k b := by
  have linked := readable.toLinked
  constructor
  · intro steady
    have comes : ∀ p depth, m.Reaches k b p depth →
        Simulation.Comes (m.pathStep k b) b.entries.reverse p depth :=
      fun p depth => comes_of_reaches linked filled steady
    refine ⟨filled, ?_, ?_⟩
    · intro p depth i reaches hi
      have here := comes p depth reaches
      obtain ⟨out, ran⟩ := steady.runs p depth here
      obtain ⟨i', hi', runs, -⟩ :=
        (pathStep_eq_ok linked (here.lt (bounded_pathStep linked filled))).mp ran
      obtain rfl : i = i' := Option.some.inj (hi.symm.trans hi')
      exact runs
    · intro p depth depth' reaches reaches'
      exact steady.agree p depth depth' (comes p depth reaches) (comes p depth' reaches')
  · intro balanced
    constructor
    · intro p depth comes
      have hp := comes.lt (bounded_pathStep linked filled)
      obtain ⟨i, stored⟩ := readable.stored _ (List.getElem_mem hp)
      have hi : m.instructionAt? b p = some i := by
        rw [instructionAt?, List.getElem?_eq_getElem hp]
        exact stored
      have runs := balanced.runs p depth i (reaches_of_comes linked filled comes) hi
      exact ⟨_, (pathStep_eq_ok linked hp).mpr ⟨i, hi, runs, rfl⟩⟩
    · intro p depth depth' comes comes'
      exact balanced.agree p depth depth' (reaches_of_comes linked filled comes)
        (reaches_of_comes linked filled comes')

/-- The depths that the simulation comes to are those on the paths. -/
theorem depth_iff_pathDepth (h : b.Linked m.arena) (filled : b.code ≠ [])
    (steady : Simulation.Steady (m.pathStep k b) b.entries.reverse) {x : Nat} :
    Simulation.Depth (m.pathStep k b) b.entries.reverse x ↔ m.PathDepth k b x := by
  constructor
  · rintro ⟨p, depth, after, following, comes, ran, deep⟩
    obtain ⟨i, hi, -, same⟩ :=
      (pathStep_eq_ok h (comes.lt (bounded_pathStep h filled))).mp ran
    cases same
    exact ⟨p, depth, i, reaches_of_comes h filled comes, hi, deep⟩
  · rintro ⟨p, depth, i, reaches, hi, deep⟩
    have comes := comes_of_reaches h filled steady reaches
    obtain ⟨out, ran⟩ := steady.runs p depth comes
    obtain ⟨i', hi', -, rfl⟩ :=
      (pathStep_eq_ok h (comes.lt (bounded_pathStep h filled))).mp ran
    obtain rfl : i = i' := Option.some.inj (hi.symm.trans hi')
    exact ⟨p, depth, _, _, comes, ran, deep⟩

section

variable (hb : m.body? k = some b) (readable : b.Readable m.arena)
include hb readable

theorem exists_simulate_iff : (∃ d, m.simulate k = .ok d) ↔ m.Balanced k b := by
  have linked := readable.toLinked
  constructor
  · rintro ⟨d, h⟩
    have filled := filled_of_simulate hb h
    rw [simulate_eq hb linked filled] at h
    exact (steady_iff_balanced readable filled).mp
      ((Simulation.exists_visit_iff (bounded_pathStep linked filled)).mp ⟨d, h⟩)
  · intro balanced
    have steady := (steady_iff_balanced readable balanced.filled).mpr balanced
    rw [simulate_eq hb linked balanced.filled]
    exact (Simulation.exists_visit_iff (bounded_pathStep linked balanced.filled)).mpr steady

theorem balanced_of_simulate {d : Nat} (h : m.simulate k = .ok d) : m.Balanced k b :=
  (exists_simulate_iff hb readable).mp ⟨d, h⟩

theorem isGreatest_of_simulate {d : Nat} (h : m.simulate k = .ok d) :
    IsGreatest {x | m.PathDepth k b x} d := by
  have linked := readable.toLinked
  have filled := filled_of_simulate hb h
  have bounded := bounded_pathStep (k := k) linked filled
  have entered : b.entries.reverse ≠ [] := by simp [LiveBody.entries]
  rw [simulate_eq hb linked filled] at h
  have steady := (Simulation.exists_visit_iff bounded).mp ⟨d, h⟩
  have greatest := Simulation.isGreatest_of_visit bounded entered h
  have same : {x | Simulation.Depth (m.pathStep k b) b.entries.reverse x} =
      {x | m.PathDepth k b x} := by
    ext x
    exact depth_iff_pathDepth linked filled steady
  rwa [same] at greatest

end

/-- The simulation of a body that refers to its own handles only succeeds if and only if the body is
balanced, and its answer is the deepest that the stack gets on any path. -/
theorem simulation_exact (hb : m.body? k = some b) (readable : b.Readable m.arena) :
    ((∃ d, m.simulate k = .ok d) ↔ m.Balanced k b) ∧
      ∀ d, m.simulate k = .ok d → IsGreatest {x | m.PathDepth k b x} d := by
  constructor
  · exact exists_simulate_iff hb readable
  · intro d h
    exact isGreatest_of_simulate hb readable h

end Module

/-- The sample runs with at most one value on the stack, which is the exception in its handler or
the result. -/
theorem simulation_exact_sample :
    Sample.file.build.Balanced ⟨0⟩ (Sample.body.place 0) ∧
      IsGreatest {x | Sample.file.build.PathDepth ⟨0⟩ (Sample.body.place 0) x} 1 := by
  have stored : ∀ id ∈ (Sample.body.place 0).code,
      (Sample.file.build.arena.get? id).isSome = true := by decide +kernel
  have readable : (Sample.body.place 0).Readable Sample.file.build.arena :=
    ⟨Sample.linked_live, fun id hid => Option.isSome_iff_exists.mp (stored id hid)⟩
  obtain ⟨succeeds, greatest⟩ := Module.simulation_exact Sample.body?_build_zero readable
  exact ⟨succeeds.mp ⟨1, Sample.simulate_build⟩, greatest 1 Sample.simulate_build⟩

end Graft
